import SymbolBootstrap.Library.RegularExpressions

/-!
The helpers that group the digits of amounts and of hexadecimal numbers with apostrophes. A
group is matched where the rest of the text can be divided into full ones, so the first group
takes what is left over and the others tile the rest.
-/
namespace SymbolBootstrap.HandlebarsUtils

open Library.Texts Library.RegularExpressions

def apostrophe : Char := '\x27'

/-- What `\w` matches. -/
def isWord (c : Char) : Bool := c.isAlphanum || c == '_'

/-- `^\d+$`. -/
def integerPattern : Pattern :=
  .seq .start (.seq (.repeated (.chars Char.isDigit) 1 none) .stop)

/-- `c{1,size}(?=(c{size})*$)`, for a class of characters. -/
def groupPattern (test : Char → Bool) (size : ℕ) : Pattern :=
  .seq (.repeated (.chars test) 1 (some size))
    (.ahead (.seq (.repeated (.repeated (.chars test) size (some size)) 0 none) .stop))

/-- `^(0x)`. -/
def prefixPattern : Pattern :=
  .seq .start (.seq (.chars (· == '0')) (.chars (· == 'x')))

/-- A number is taken as its text. -/
def toAmount (renderedText : Text) : Except String Text :=
  let numberAsString := (renderedText.splitOn apostrophe).flatten
  if !test integerPattern numberAsString then
    throw ("'" ++ String.ofList renderedText ++ "' is not a valid integer")
  else
    return [apostrophe].intercalate
      ((matchAll (groupPattern Char.isDigit 3) numberAsString).getD [numberAsString])

def toSimpleHex (renderedText : Text) : Text :=
  if renderedText = [] then []
  else replace prefixPattern [] (renderedText.splitOn apostrophe).flatten

def toHex (renderedText : Text) : Text :=
  if renderedText = [] then []
  else
    let numberAsString := toSimpleHex renderedText
    "0x".toList ++ [apostrophe].intercalate
      ((matchAll (groupPattern isWord 4) numberAsString).getD [numberAsString])

section Groups

variable {test : Char → Bool} {size : ℕ}

/-- Groups of a size, of which the first can be smaller. -/
structure Groups (size : ℕ) where
  first : Text
  others : List Text
  first_ne_nil : first ≠ []
  first_le : first.length ≤ size
  others_length : ∀ group ∈ others, group.length = size

/-- The text that is divided. -/
def Groups.text (groups : Groups size) : Text := (groups.first :: groups.others).flatten

/-- The groups with an apostrophe between them. -/
def Groups.joined (groups : Groups size) : Text :=
  [apostrophe].intercalate (groups.first :: groups.others)

/-- Any text but the empty one can be divided. -/
theorem exists_groups (hsize : 0 < size) {text : Text} (htext : text ≠ []) :
    ∃ groups : Groups size, groups.text = text := by
  induction hlength : text.length using Nat.strong_induction_on generalizing text with
  | h length ih =>
    rcases Nat.lt_or_ge size text.length with hlt | hle
    · have hfront : (text.take (text.length - size)).length = text.length - size :=
        List.length_take_of_le (Nat.sub_le _ _)
      have hne : text.take (text.length - size) ≠ [] :=
        List.ne_nil_of_length_pos (hfront.symm ▸ Nat.sub_pos_of_lt hlt)
      obtain ⟨groups, hgroups⟩ := ih (text.length - size) (by omega) hne hfront
      refine ⟨⟨groups.first, groups.others ++ [text.drop (text.length - size)],
        groups.first_ne_nil, groups.first_le, ?_⟩, ?_⟩
      · intro group hgroup
        rcases List.mem_append.mp hgroup with hgroup | hgroup
        · exact groups.others_length group hgroup
        · rw [List.mem_singleton.mp hgroup, List.length_drop]
          omega
      · show (groups.first :: groups.others ++ [text.drop (text.length - size)]).flatten = text
        rw [List.flatten_append, List.flatten_singleton, ← Groups.text, hgroups,
          List.take_append_drop]
    · exact ⟨⟨text, [], htext, hle, fun _ h => absurd h List.not_mem_nil⟩,
        List.flatten_singleton⟩

theorem reads_part (test : Char → Bool) (hsize : 0 < size) :
    Reads (.repeated (.chars test) 1 (some size)) (powers (letters test) 1 size) :=
  (reads_chars test).repeated (nil_notMem_letters test) hsize

/-- The rest can be divided into full groups. -/
theorem rests_full (hsize : 0 < size) {length : ℕ} {rest : Text}
    (hrest : ∀ c ∈ rest, test c = true) :
    rests length (.seq (.repeated (.repeated (.chars test) size (some size)) 0 none) .stop) rest ≠
      [] ↔ size ∣ rest.length := by
  have hfull : Reads (.repeated (.chars test) size (some size)) (letters test ^ size) :=
    (reads_chars test).counted (nil_notMem_letters test) size
  have hnil : [] ∉ letters test ^ size := by
    intro h
    have hlength := (mem_letters_pow.mp h).1
    exact hsize.ne hlength
  rw [(hfull.unbounded hnil 0).rests_stop]
  constructor
  · rintro ⟨n, -, hword⟩
    rw [← pow_mul] at hword
    exact ⟨n, (mem_letters_pow.mp hword).1⟩
  · rintro ⟨n, hlength⟩
    refine ⟨n, Nat.zero_le n, ?_⟩
    rw [← pow_mul]
    exact mem_letters_pow.mpr ⟨hlength, hrest⟩

/-- Of two parts that leave full groups behind them none is the longer one. -/
theorem length_le_of_full {part part' rest rest' : Text} (h : part ++ rest = part' ++ rest')
    (hpart : 0 < part.length) (hpart' : part'.length ≤ size) (hrest : size ∣ rest.length)
    (hrest' : size ∣ rest'.length) : part'.length ≤ part.length := by
  by_contra hlt
  have hlength := congrArg List.length h
  rw [List.length_append, List.length_append] at hlength
  have hdvd := Nat.dvd_sub hrest hrest'
  have hle := Nat.le_of_dvd (by omega) hdvd
  omega

/-- A group is matched up to where full ones are left. -/
theorem head?_group (hsize : 0 < size) {length : ℕ} {group rest : Text} (hgroup : group ≠ [])
    (hle : group.length ≤ size) (hrest : size ∣ rest.length)
    (htest : ∀ c ∈ group ++ rest, test c = true) :
    (rests length (groupPattern test size) (group ++ rest)).head? = some rest := by
  have hpos := List.length_pos_iff.mpr hgroup
  rw [groupPattern, rests_ahead]
  refine head?_of_forall_eq (List.mem_filter.mpr ⟨?_, ?_⟩) ?_
  · refine (reads_part test hsize _ _ _).mpr ⟨group, ⟨group.length, hpos, hle, ?_⟩, rfl⟩
    exact mem_letters_pow.mpr ⟨rfl, fun c hc => htest c (List.mem_append_left _ hc)⟩
  · rw [decide_eq_true_eq, rests_full hsize fun c hc => htest c (List.mem_append_right _ hc)]
    exact hrest
  · intro rest' hrest'
    obtain ⟨hpart, hfull⟩ := List.mem_filter.mp hrest'
    obtain ⟨part, ⟨n, hn, hn', hword⟩, heq⟩ := (reads_part test hsize _ _ _).mp hpart
    obtain ⟨rfl, -⟩ := mem_letters_pow.mp hword
    have htest' : ∀ c ∈ rest', test c = true := by
      intro c hc
      exact htest c (heq ▸ List.mem_append_right _ hc)
    rw [decide_eq_true_eq, rests_full hsize htest'] at hfull
    have hlength : part.length = group.length := le_antisymm
      (length_le_of_full heq.symm hpos hn' hrest hfull) (length_le_of_full heq hn hle hfull hrest)
    exact (List.append_inj heq hlength).2

theorem dvd_length_flatten {groups : List Text} (h : ∀ group ∈ groups, group.length = size) :
    size ∣ groups.flatten.length := by
  induction groups with
  | nil => exact Nat.dvd_zero size
  | cons group groups ih =>
    obtain ⟨hgroup, hgroups⟩ := List.forall_mem_cons.mp h
    rw [List.flatten_cons, List.length_append]
    exact (Nat.dvd_add_right (hgroup ▸ Nat.dvd_refl _)).mpr (ih hgroups)

theorem rests_group_nil (hsize : 0 < size) (length : ℕ) :
    rests length (groupPattern test size) [] = [] := by
  rw [groupPattern, rests_ahead, (reads_part test hsize).rests_eq_nil.mpr, List.filter_nil]
  rintro word ⟨n, hn, -, hword⟩ hstarts
  rw [List.prefix_nil.mp hstarts] at hword
  have hlength := (mem_letters_pow.mp hword).1
  rw [List.length_nil] at hlength
  omega

/-- Full groups are matched one after the other. -/
theorem pieces_full (hsize : 0 < size) {length : ℕ} {groups : List Text}
    (h : ∀ group ∈ groups, group.length = size) (htest : ∀ c ∈ groups.flatten, test c = true) :
    pieces length (groupPattern test size) 0 groups.flatten = groups.map .matched := by
  induction groups with
  | nil => exact pieces_nil (rests_group_nil hsize length)
  | cons group groups ih =>
    obtain ⟨hgroup, hgroups⟩ := List.forall_mem_cons.mp h
    rw [List.flatten_cons] at htest
    have hne : group ≠ [] := List.ne_nil_of_length_pos (hgroup ▸ hsize)
    rw [List.flatten_cons, pieces_matched hne (head?_group hsize hne hgroup.le
      (dvd_length_flatten hgroups) htest), List.map_cons,
      ih hgroups fun c hc => htest c (List.mem_append_right _ hc)]

/-- The groups are what is matched. -/
theorem Groups.matchAll (groups : Groups size) (htest : ∀ c ∈ groups.text, test c = true) :
    matchAll (groupPattern test size) groups.text = some (groups.first :: groups.others) := by
  have hsize : 0 < size := (List.length_pos_iff.mpr groups.first_ne_nil).trans_le groups.first_le
  have hpieces : pieces groups.text.length (groupPattern test size) 0 groups.text =
      (groups.first :: groups.others).map .matched := by
    rw [Groups.text, List.flatten_cons] at htest ⊢
    rw [pieces_matched groups.first_ne_nil (head?_group hsize groups.first_ne_nil groups.first_le
      (dvd_length_flatten groups.others_length) htest), List.map_cons,
      pieces_full hsize groups.others_length fun c hc => htest c (List.mem_append_right _ hc)]
  exact matchAll_of_pieces hpieces (List.cons_ne_nil _ _)

end Groups

section Digits

/-- The text without its apostrophes. -/
def withoutApostrophes (text : Text) : Text := text.filter (· ≠ apostrophe)

/-- Groups of characters of a class, with an apostrophe between them. -/
def IsGrouped (size : ℕ) (test : Char → Bool) (text : Text) : Prop :=
  ∃ groups : Groups size, text = groups.joined ∧ ∀ c ∈ groups.text, test c = true

theorem apostrophe_notMem {test : Char → Bool} (h : test apostrophe = false) {text : Text}
    (htest : ∀ c ∈ text, test c = true) : apostrophe ∉ text := by
  intro hmem
  rw [htest _ hmem] at h
  cases h

/-- The apostrophes between the groups are all that is added. -/
theorem Groups.withoutApostrophes_joined {size : ℕ} (groups : Groups size)
    (h : apostrophe ∉ groups.text) : withoutApostrophes groups.joined = groups.text := by
  rw [withoutApostrophes, ← flatten_splitOn, Groups.joined,
    List.splitOn_intercalate apostrophe _ (List.cons_ne_nil _ _), Groups.text]
  intro group hgroup hmem
  exact h (List.mem_flatten_of_mem hgroup hmem)

/-- A number is at least one digit. -/
theorem test_integerPattern {text : Text} : test integerPattern text = true ↔
    text ≠ [] ∧ ∀ c ∈ text, c.isDigit = true := by
  have hreads := (reads_chars Char.isDigit).unbounded (nil_notMem_letters _) 1
  rw [integerPattern, hreads.test_whole]
  constructor
  · rintro ⟨n, hn, hword⟩
    obtain ⟨rfl, htest⟩ := mem_letters_pow.mp hword
    exact ⟨List.length_pos_iff.mp hn, htest⟩
  · rintro ⟨hne, htest⟩
    exact ⟨text.length, List.length_pos_iff.mpr hne, mem_letters_pow.mpr ⟨rfl, htest⟩⟩

theorem toAmount_groups {text : Text} {groups : Groups 3}
    (hgroups : groups.text = withoutApostrophes text)
    (htest : ∀ c ∈ groups.text, c.isDigit = true) : toAmount text = .ok groups.joined := by
  have hne : groups.text ≠ [] := by
    rw [Groups.text, List.flatten_cons]
    exact List.append_ne_nil_of_left_ne_nil groups.first_ne_nil _
  rw [toAmount, flatten_splitOn, ← withoutApostrophes, ← hgroups]
  simp only [test_integerPattern.mpr ⟨hne, htest⟩, Bool.not_true, Bool.false_eq_true, if_false,
    groups.matchAll htest, Option.getD_some]
  rfl

theorem toAmount_error {text : Text}
    (h : ¬ (withoutApostrophes text ≠ [] ∧ ∀ c ∈ withoutApostrophes text, c.isDigit = true)) :
    toAmount text = .error ("'" ++ String.ofList text ++ "' is not a valid integer") := by
  have htest : test integerPattern (withoutApostrophes text) = false :=
    Bool.not_eq_true _ ▸ mt test_integerPattern.mp h
  rw [toAmount, flatten_splitOn, ← withoutApostrophes]
  simp only [htest, Bool.not_false, if_true]
  rfl

/-- Digits are grouped, and nothing else is. -/
theorem toAmount_ok {text amount : Text} (h : toAmount text = .ok amount) :
    ∃ groups : Groups 3, groups.text = withoutApostrophes text ∧
      (∀ c ∈ groups.text, c.isDigit = true) ∧ amount = groups.joined := by
  by_cases hdigits : withoutApostrophes text ≠ [] ∧ ∀ c ∈ withoutApostrophes text, c.isDigit = true
  · obtain ⟨groups, hgroups⟩ := @exists_groups 3 (by decide) _ hdigits.1
    have htest := hgroups ▸ hdigits.2
    rw [toAmount_groups hgroups htest, Except.ok.injEq] at h
    exact ⟨groups, hgroups, htest, h.symm⟩
  · rw [toAmount_error hdigits] at h
    cases h

end Digits

section Hexadecimal

/-- A hexadecimal number that may have a prefix, with apostrophes anywhere. -/
structure HexText where
  text : Text
  digits : Text
  digits_ne_nil : digits ≠ []
  digits_hex : ∀ c ∈ digits, isHexDigit c = true
  text_eq : withoutApostrophes text = digits ∨ withoutApostrophes text = "0x".toList ++ digits

theorem HexText.text_ne_nil (x : HexText) : x.text ≠ [] := by
  intro hnil
  have h := x.text_eq
  rw [hnil] at h
  rcases h with h | h
  · exact x.digits_ne_nil h.symm
  · cases h

/-- `0x` alone. -/
theorem reads_zeroX : Reads (.seq (.chars (· == '0')) (.chars (· == 'x')))
    (letters (· == '0') * letters (· == 'x')) :=
  (reads_chars _).seq (reads_chars _)

theorem mem_zeroX {word : Text} :
    word ∈ letters (· == '0') * letters (· == 'x') ↔ word = "0x".toList := by
  rw [Language.mem_mul]
  constructor
  · rintro ⟨_, ⟨c, hc, rfl⟩, _, ⟨c', hc', rfl⟩, rfl⟩
    rw [eq_of_beq hc, eq_of_beq hc']
    rfl
  · rintro rfl
    exact ⟨['0'], ⟨'0', rfl, rfl⟩, ['x'], ⟨'x', rfl, rfl⟩, rfl⟩

theorem HexText.toSimpleHex (x : HexText) : toSimpleHex x.text = x.digits := by
  rw [HandlebarsUtils.toSimpleHex, if_neg x.text_ne_nil, flatten_splitOn, ← withoutApostrophes,
    prefixPattern]
  rcases x.text_eq with h | h
  · rw [h]
    refine reads_zeroX.replace_start_of_not fun word hword hstarts => ?_
    rw [mem_zeroX.mp hword] at hstarts
    have hx := x.digits_hex 'x' (hstarts.subset (by decide))
    cases hx
  · rw [h, @Reads.replace_start _ _ [] reads_zeroX 2 _ _ _ (mem_zeroX.mpr rfl), List.nil_append]
    intro word hword
    rw [mem_zeroX.mp hword]
    rfl

theorem isWord_of_hex {c : Char} (h : isHexDigit c = true) : isWord c = true := by
  have hword : isWord c = (c.isUpper || c.isLower || c.isDigit || c == '_') := rfl
  rw [isHexDigit, Bool.or_eq_true, Bool.or_eq_true] at h
  rcases h with (hdigit | hlower) | hupper
  · rw [hword, hdigit, Bool.or_true, Bool.true_or]
  · obtain ⟨hleast, hmost⟩ := Bool.and_eq_true_iff.mp hlower
    have hlower : c.isLower = true := Bool.and_eq_true_iff.mpr ⟨hleast, decide_eq_true
      (UInt32.le_trans (of_decide_eq_true hmost) (show 'f'.val ≤ 'z'.val by decide))⟩
    rw [hword, hlower, Bool.or_true, Bool.true_or, Bool.true_or]
  · obtain ⟨hleast, hmost⟩ := Bool.and_eq_true_iff.mp hupper
    have hupper : c.isUpper = true := decide_eq_true ⟨of_decide_eq_true hleast,
      UInt32.le_trans (of_decide_eq_true hmost) (show 'F'.val ≤ 'Z'.val by decide)⟩
    rw [hword, hupper, Bool.true_or, Bool.true_or, Bool.true_or]

theorem HexText.toHex_groups (x : HexText) : ∃ groups : Groups 4, groups.text = x.digits ∧
    toHex x.text = "0x".toList ++ groups.joined := by
  obtain ⟨groups, hgroups⟩ := @exists_groups 4 (by decide) _ x.digits_ne_nil
  have htest : ∀ c ∈ groups.text, isWord c = true :=
    fun c hc => isWord_of_hex (x.digits_hex c (hgroups ▸ hc))
  refine ⟨groups, hgroups, ?_⟩
  rw [toHex, if_neg x.text_ne_nil, x.toSimpleHex, ← hgroups]
  simp only [groups.matchAll htest, Option.getD_some]
  rfl

/-- What is made of a number is the number again. -/
theorem HexText.exists_toHex (x : HexText) : ∃ y : HexText, y.text = toHex x.text ∧
    y.digits = x.digits := by
  obtain ⟨groups, hgroups, htext⟩ := x.toHex_groups
  have hnone : apostrophe ∉ groups.text :=
    apostrophe_notMem (by decide) fun c hc => x.digits_hex c (hgroups ▸ hc)
  refine ⟨⟨toHex x.text, x.digits, x.digits_ne_nil, x.digits_hex, .inr ?_⟩, rfl, rfl⟩
  rw [htext, withoutApostrophes, List.filter_append, ← withoutApostrophes, ← withoutApostrophes,
    groups.withoutApostrophes_joined hnone, hgroups]
  rfl

/-- The grouped text depends on the digits alone. -/
theorem HexText.toHex_congr {x y : HexText} (h : x.digits = y.digits) :
    toHex x.text = toHex y.text := by
  rw [toHex, toHex, if_neg x.text_ne_nil, if_neg y.text_ne_nil, x.toSimpleHex, y.toSimpleHex, h]

end Hexadecimal

/-- Grouping loses no digit, puts the groups where they belong and leaves grouped digits as they
are: for amounts, where digits are all that is accepted, and for hexadecimal numbers, whose
digits are what `toSimpleHex` reads, before grouping and after it. -/
theorem grouping_lossless_and_canonical :
    (∀ text : Text,
      ((∃ amount, toAmount text = .ok amount) ↔
        withoutApostrophes text ≠ [] ∧ ∀ c ∈ withoutApostrophes text, c.isDigit = true) ∧
      ∀ amount, toAmount text = .ok amount →
        withoutApostrophes amount = withoutApostrophes text ∧
        IsGrouped 3 Char.isDigit amount ∧ toAmount amount = .ok amount) ∧
    ∀ x : HexText,
      toSimpleHex x.text = x.digits ∧
      toSimpleHex (toHex x.text) = toSimpleHex x.text ∧
      (∃ grouped, toHex x.text = "0x".toList ++ grouped ∧ IsGrouped 4 isHexDigit grouped) ∧
      toHex (toHex x.text) = toHex x.text := by
  refine ⟨fun text => ⟨⟨?_, ?_⟩, ?_⟩, fun x => ⟨x.toSimpleHex, ?_, ?_, ?_⟩⟩
  · rintro ⟨amount, hamount⟩
    by_contra hdigits
    rw [toAmount_error hdigits] at hamount
    cases hamount
  · rintro ⟨hne, htest⟩
    obtain ⟨groups, hgroups⟩ := @exists_groups 3 (by decide) _ hne
    exact ⟨groups.joined, toAmount_groups hgroups (hgroups ▸ htest)⟩
  · intro amount hamount
    obtain ⟨groups, hgroups, htest, rfl⟩ := toAmount_ok hamount
    have hamounts := groups.withoutApostrophes_joined (apostrophe_notMem (by decide) htest)
    exact ⟨hamounts.trans hgroups, ⟨groups, rfl, htest⟩, toAmount_groups hamounts.symm htest⟩
  · obtain ⟨y, hy, hdigits⟩ := x.exists_toHex
    rw [← hy, y.toSimpleHex, x.toSimpleHex, hdigits]
  · obtain ⟨groups, hgroups, htext⟩ := x.toHex_groups
    exact ⟨groups.joined, htext, groups, rfl, fun c hc => x.digits_hex c (hgroups ▸ hc)⟩
  · obtain ⟨y, hy, hdigits⟩ := x.exists_toHex
    rw [← hy, HexText.toHex_congr hdigits, hy]

example : toAmount "12'3456'78".toList = .ok "12'345'678".toList := by decide

end SymbolBootstrap.HandlebarsUtils
