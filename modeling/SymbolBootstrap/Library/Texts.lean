import Mathlib.Algebra.GroupWithZero.Nat
import Mathlib.Data.List.DropRight

/-!
Texts as JavaScript reads them: white space, `trim`, the lines of a text and its length in
code units.
-/
namespace Library.Texts

abbrev Text := List Char

/-- White space as `\s` and `trim` know it. -/
def isWhitespace (c : Char) : Bool :=
  c == ' ' || (9 ≤ c.toNat && c.toNat ≤ 13) || c.toNat == 0xA0 || c.toNat == 0x1680 ||
    (0x2000 ≤ c.toNat && c.toNat ≤ 0x200A) || c.toNat == 0x2028 || c.toNat == 0x2029 ||
    c.toNat == 0x202F || c.toNat == 0x205F || c.toNat == 0x3000 || c.toNat == 0xFEFF

/-- What `[\r\n]` matches. -/
def isNewline (c : Char) : Bool := c == '\r' || c == '\n'

/-- What `[0-9a-fA-F]` matches. -/
def isHexDigit (c : Char) : Bool :=
  c.isDigit || ('a' ≤ c && c ≤ 'f') || ('A' ≤ c && c ≤ 'F')

/-- What a dot in a pattern does not match. -/
def isLineTerminator (c : Char) : Bool :=
  isNewline c || c.toNat == 0x2028 || c.toNat == 0x2029

def trimEnd (text : Text) : Text := text.rdropWhile isWhitespace

def trim (text : Text) : Text := trimEnd (text.dropWhile isWhitespace)

/-- The code units of a character. -/
def codeUnits (c : Char) : ℕ := if c.toNat < 0x10000 then 1 else 2

/-- `text.length`. -/
def utf16Length (text : Text) : ℕ := (text.map codeUnits).sum

/-- `text.split(/\s*[\r\n]+\s*/)`, from what was read of a part, and the white space read
after it. White space with a newline in it divides, and other white space does not. -/
def splitLinesFrom (part space : Text) : Text → List Text
  | [] => if space.any isNewline then [part, []] else [part ++ space]
  | c :: rest =>
      if isWhitespace c then splitLinesFrom part (space ++ [c]) rest
      else if space.any isNewline then part :: splitLinesFrom [c] [] rest
      else splitLinesFrom (part ++ space ++ [c]) [] rest

def splitLines (text : Text) : List Text := splitLinesFrom [] [] text

/-- A text that `trim` leaves as it is. -/
def Trimmed (text : Text) : Prop :=
  (∀ c ∈ text.head?, isWhitespace c = false) ∧ ∀ c ∈ text.getLast?, isWhitespace c = false

/-- White space alone. -/
def Blank (text : Text) : Prop := ∀ c ∈ text, isWhitespace c = true

def SingleLine (text : Text) : Prop := ∀ c ∈ text, isLineTerminator c = false

instance (text : Text) : Decidable (Trimmed text) :=
  decidable_of_iff ((text.head?.all fun c => !isWhitespace c) = true ∧
    (text.getLast?.all fun c => !isWhitespace c) = true) (by simp [Trimmed, Option.all_eq_true])

instance (text : Text) : Decidable (SingleLine text) :=
  decidable_of_iff ((text.all fun c => !isLineTerminator c) = true) (by simp [SingleLine])

theorem blank_nil : Blank [] := nofun

theorem utf16Length_append (text rest : Text) :
    utf16Length (text ++ rest) = utf16Length text + utf16Length rest := by
  rw [utf16Length, List.map_append, List.sum_append, utf16Length, utf16Length]

theorem trimmed_nil : Trimmed [] := ⟨nofun, nofun⟩

/-- Splitting and joining takes the separator out. -/
theorem flatten_splitOn (separator : Char) (text : Text) :
    (text.splitOn separator).flatten = text.filter (· ≠ separator) := by
  induction text with
  | nil => rfl
  | cons c rest ih =>
    obtain ⟨part, parts, hparts⟩ := List.exists_cons_of_ne_nil (List.splitOn_ne_nil separator rest)
    rw [hparts] at ih
    rw [List.splitOn_cons_eq_if_modifyHead, hparts, List.filter_cons]
    by_cases hc : c = separator
    · simpa [hc] using ih
    · simpa [hc] using ih

section Trim

theorem dropWhile_of_head {text : Text} (h : ∀ c ∈ text.head?, isWhitespace c = false) :
    text.dropWhile isWhitespace = text := by
  cases text with
  | nil => rfl
  | cons c rest => exact List.dropWhile_cons_of_neg (by rw [h c rfl]; decide)

theorem trimEnd_of_last {text : Text} (h : ∀ c ∈ text.getLast?, isWhitespace c = false) :
    trimEnd text = text := by
  rw [trimEnd, List.rdropWhile_eq_self_iff]
  intro hne
  rw [h _ (List.getLast_mem_getLast? hne)]
  decide

theorem trimEnd_last (text : Text) : ∀ c ∈ (trimEnd text).getLast?, isWhitespace c = false := by
  intro c hc
  obtain ⟨hne, rfl⟩ := List.mem_getLast?_eq_getLast hc
  exact Bool.not_eq_true _ ▸ List.rdropWhile_last_not isWhitespace text hne

theorem trim_of_trimmed {text : Text} (h : Trimmed text) : trim text = text := by
  rw [trim, dropWhile_of_head h.1, trimEnd_of_last h.2]

theorem trimEnd_append_blank (text : Text) {space : Text} (h : Blank space) :
    trimEnd (text ++ space) = trimEnd text := by
  have hspace : ∀ c ∈ space.reverse, isWhitespace c = true :=
    fun c hc => h c (List.mem_reverse.mp hc)
  rw [trimEnd, List.rdropWhile, List.reverse_append, List.dropWhile_append_of_pos hspace]
  rfl

theorem trim_blank_append (text : Text) {space : Text} (h : Blank space) :
    trim (space ++ text) = trim text := by
  rw [trim, List.dropWhile_append_of_pos h, trim]

/-- Blanks around a text are removed, and nothing else. -/
theorem trim_padded {text before after : Text} (hbefore : Blank before) (hafter : Blank after)
    (htext : Trimmed text) : trim (before ++ text ++ after) = text := by
  rw [List.append_assoc, trim_blank_append _ hbefore]
  by_cases hne : text = []
  · rw [hne, List.nil_append, ← List.append_nil after, trim_blank_append [] hafter]
    rfl
  · have hhead : ∀ c ∈ (text ++ after).head?, isWhitespace c = false := by
      rw [List.head?_append_of_ne_nil _ hne]
      exact htext.1
    rw [trim, dropWhile_of_head hhead, trimEnd_append_blank _ hafter, trimEnd_of_last htext.2]

theorem mem_dropWhile {text : Text} {c : Char} (h : c ∈ text) (hc : isWhitespace c = false) :
    c ∈ text.dropWhile isWhitespace := by
  rw [← List.takeWhile_append_dropWhile (p := isWhitespace) (l := text), List.mem_append] at h
  refine h.resolve_left fun htake => ?_
  rw [List.mem_takeWhile_imp htake] at hc
  cases hc

/-- What is no white space stays. -/
theorem mem_trim {text : Text} {c : Char} (h : c ∈ text) (hc : isWhitespace c = false) :
    c ∈ trim text :=
  List.mem_reverse.mpr (mem_dropWhile (List.mem_reverse.mpr (mem_dropWhile h hc)) hc)

end Trim

/-- What divides two lines: white space with a newline in it. -/
def Breaks (gap : Text) : Prop := Blank gap ∧ gap.any isNewline = true

/-- A line as it is read: with something on it, no white space around it and on one line. -/
def IsLine (line : Text) : Prop := line ≠ [] ∧ Trimmed line ∧ line.any isNewline = false

/-- A text that writes lines one after the other. -/
inductive Written : List Text → Text → Prop
  | nil : Written [] []
  | one (line : Text) : Written [line] line
  | cons {line gap next text : Text} {rest : List Text} (hgap : Breaks gap)
      (hrest : Written (next :: rest) text) : Written (line :: next :: rest) (line ++ gap ++ text)

section Lines

theorem any_isNewline_of_single {text : Text} (h : SingleLine text) :
    text.any isNewline = false := by
  rw [List.any_eq_false]
  intro c hc hnewline
  have hterminator := h c hc
  rw [isLineTerminator, hnewline] at hterminator
  cases hterminator

theorem splitLinesFrom_blank (part space : Text) {gap : Text} (h : Blank gap) (rest : Text) :
    splitLinesFrom part space (gap ++ rest) = splitLinesFrom part (space ++ gap) rest := by
  induction gap generalizing space with
  | nil => rw [List.nil_append, List.append_nil]
  | cons c gap ih =>
    have hc : isWhitespace c = true := h c List.mem_cons_self
    rw [List.cons_append, splitLinesFrom, if_pos hc,
      ih (space ++ [c]) fun c' hc' => h c' (List.mem_cons_of_mem _ hc'), List.append_assoc]
    rfl

/-- Without a newline a line goes to the part read so far, and the white space before it too. -/
theorem splitLinesFrom_line (part space : Text) {line : Text} (hspace : space.any isNewline = false)
    (hnewline : line.any isNewline = false) (hne : line ≠ [])
    (hlast : ∀ c ∈ line.getLast?, isWhitespace c = false) (rest : Text) :
    splitLinesFrom part space (line ++ rest) = splitLinesFrom (part ++ space ++ line) [] rest := by
  induction line generalizing part space with
  | nil => exact absurd rfl hne
  | cons c line ih =>
    rw [List.any_cons, Bool.or_eq_false_iff] at hnewline
    obtain ⟨hc, hline⟩ := hnewline
    by_cases hnil : line = []
    · subst hnil
      rw [List.cons_append, splitLinesFrom, hlast c rfl, hspace]
      rfl
    · have hlast' : ∀ c ∈ line.getLast?, isWhitespace c = false := by
        intro c' hc'
        refine hlast c' ?_
        rw [List.getLast?_cons_of_ne_nil hnil]
        exact hc'
      rw [List.cons_append, splitLinesFrom, hspace]
      cases isWhitespace c with
      | true =>
        rw [if_pos rfl, ih part (space ++ [c]) (by simp [hspace, hc]) hline hnil hlast']
        simp
      | false =>
        rw [if_neg (by decide), if_neg (by decide),
          ih (part ++ space ++ [c]) [] rfl hline hnil hlast']
        simp

/-- After a newline a line begins the next part. -/
theorem splitLinesFrom_break (part space : Text) {line : Text} (hspace : space.any isNewline = true)
    (hline : IsLine line) (rest : Text) :
    splitLinesFrom part space (line ++ rest) = part :: splitLinesFrom line [] rest := by
  obtain ⟨hne, ⟨hhead, hlast⟩, hnewline⟩ := hline
  cases line with
  | nil => exact absurd rfl hne
  | cons c line =>
    rw [List.cons_append, splitLinesFrom, hhead c rfl, if_neg (by decide), if_pos hspace]
    by_cases hnil : line = []
    · subst hnil
      rfl
    · rw [List.any_cons, Bool.or_eq_false_iff] at hnewline
      rw [splitLinesFrom_line [c] [] rfl hnewline.2 hnil ?_ rest]
      · rfl
      · intro c' hc'
        refine hlast c' ?_
        rw [List.getLast?_cons_of_ne_nil hnil]
        exact hc'

theorem splitLinesFrom_isLine (part space : Text) {line : Text} (hline : IsLine line)
    (rest : Text) : splitLinesFrom part space (line ++ rest) =
      if space.any isNewline then part :: splitLinesFrom line [] rest
      else splitLinesFrom (part ++ space ++ line) [] rest := by
  cases hspace : space.any isNewline with
  | true => exact splitLinesFrom_break part space hspace hline rest
  | false => exact splitLinesFrom_line part space hspace hline.2.2 hline.1 hline.2.1.2 rest

theorem splitLinesFrom_written {lines : List Text} {text : Text} (h : Written lines text)
    (hlines : ∀ line ∈ lines, IsLine line) (part space : Text) {line : Text} {rest : List Text}
    (heq : lines = line :: rest) : splitLinesFrom part space text =
      if space.any isNewline then part :: line :: rest else (part ++ space ++ line) :: rest := by
  induction h generalizing part space line rest with
  | nil => cases heq
  | one first =>
    cases heq
    have hline := splitLinesFrom_isLine part space (hlines first List.mem_cons_self) []
    rw [List.append_nil] at hline
    rw [hline]
    simp [splitLinesFrom]
  | @cons first gap next text' rest' hgap _ ih =>
    cases heq
    have htext : ∀ read, splitLinesFrom read [] (gap ++ text') = read :: next :: rest' := by
      intro read
      rw [splitLinesFrom_blank read [] hgap.1,
        ih (fun l hl => hlines l (List.mem_cons_of_mem _ hl)) read ([] ++ gap) rfl]
      exact if_pos hgap.2
    rw [List.append_assoc, splitLinesFrom_isLine part space (hlines first List.mem_cons_self),
      htext, htext]

theorem splitLines_written {line text : Text} {rest : List Text} (h : Written (line :: rest) text)
    (hlines : ∀ l ∈ line :: rest, IsLine l) : splitLines text = line :: rest :=
  splitLinesFrom_written h hlines [] [] rfl

theorem written_ne_nil {lines : List Text} {text : Text} (h : Written lines text)
    (hlines : ∀ line ∈ lines, IsLine line) (hne : lines ≠ []) : text ≠ [] := by
  cases h with
  | nil => exact absurd rfl hne
  | one => exact (hlines text List.mem_cons_self).1
  | @cons line gap _ text _ _ _ =>
    exact List.append_ne_nil_of_left_ne_nil
      (List.append_ne_nil_of_left_ne_nil (hlines line List.mem_cons_self).1 gap) text

theorem written_trimmed {lines : List Text} {text : Text} (h : Written lines text)
    (hlines : ∀ line ∈ lines, IsLine line) : Trimmed text := by
  induction h with
  | nil => exact trimmed_nil
  | one line => exact (hlines line List.mem_cons_self).2.1
  | @cons line gap next text rest _ hrest ih =>
    have hline := hlines line List.mem_cons_self
    have hothers : ∀ l ∈ next :: rest, IsLine l := fun l hl => hlines l (List.mem_cons_of_mem _ hl)
    have htext := written_ne_nil hrest hothers (List.cons_ne_nil _ _)
    constructor
    · rw [List.append_assoc, List.head?_append_of_ne_nil _ hline.1]
      exact hline.2.1.1
    · rw [List.getLast?_append_of_ne_nil _ htext]
      exact (ih hothers).2

/-- The lines of a text that writes them, with white space around it. -/
theorem splitLines_trim {line text before after : Text} {rest : List Text}
    (h : Written (line :: rest) text) (hlines : ∀ l ∈ line :: rest, IsLine l)
    (hbefore : Blank before) (hafter : Blank after) :
    splitLines (trim (before ++ text ++ after)) = line :: rest := by
  rw [trim_padded hbefore hafter (written_trimmed h hlines), splitLines_written h hlines]

end Lines

end Library.Texts
