import Mathlib.Computability.Language
import Mathlib.Data.List.Infix
import SymbolBootstrap.Library.Texts

/-!
Regular expressions as JavaScript matches them. A pattern is tried at a place of a text, and of
what it can read there the first in the order of backtracking is taken. A pattern without
assertions reads the words of a language, wherever it is tried.
-/
namespace Library.RegularExpressions

open Library.Texts

inductive Pattern
  /-- A character of a class. -/
  | chars (test : Char → Bool)
  /-- `^`. -/
  | start
  /-- `$`. -/
  | stop
  | seq (first second : Pattern)
  /-- `{least,most}`, which prefers more. -/
  | repeated (body : Pattern) (least : ℕ) (most : Option ℕ)
  /-- `(?=body)`. -/
  | ahead (body : Pattern)

/-- What is left after a body is repeated. When no repetition is due any more, one that reads
nothing is given up. -/
def repeatedRests (body : Text → List Text) : ℕ → ℕ → Text → List Text
  | 0, _, rest => [rest]
  | most + 1, least + 1, rest => (body rest).flatMap (repeatedRests body most least)
  | most + 1, 0, rest =>
      ((body rest).filter (· ≠ rest)).flatMap (repeatedRests body most 0) ++ [rest]

/-- What is left after a pattern is matched where `rest` is left of a text of that length, in
the order in which the matches are tried. -/
def rests (length : ℕ) : Pattern → Text → List Text
  | .chars _, [] => []
  | .chars test, c :: rest => if test c then [rest] else []
  | .start, rest => if rest.length = length then [rest] else []
  | .stop, rest => if rest = [] then [rest] else []
  | .seq first second, rest => (rests length first rest).flatMap (rests length second)
  | .repeated body least most, rest =>
      repeatedRests (rests length body) (most.getD (least + rest.length)) least rest
  | .ahead body, rest => if rests length body rest = [] then [] else [rest]

/-- `text.match(pattern)`, as a test. -/
def test (pattern : Pattern) (text : Text) : Bool :=
  text.tails.any fun rest => !(rests text.length pattern rest).isEmpty

/-- `rest.replace(pattern, replacement)`, for the first match. -/
def replaceFrom (length : ℕ) (pattern : Pattern) (replacement : Text) : Text → Text
  | [] => if rests length pattern [] = [] then [] else replacement
  | c :: rest =>
      match (rests length pattern (c :: rest)).head? with
      | some rest' => replacement ++ rest'
      | none => c :: replaceFrom length pattern replacement rest

def replace (pattern : Pattern) (replacement text : Text) : Text :=
  replaceFrom text.length pattern replacement text

/-- A text divided by the matches of a pattern with the `g` flag. -/
inductive Piece
  | between (c : Char)
  | matched (word : Text)

/-- The pieces from where so many characters were already read. After a match of nothing the
next one is tried behind the next character. -/
def pieces (length : ℕ) (pattern : Pattern) : ℕ → Text → List Piece
  | 0, [] => if rests length pattern [] = [] then [] else [.matched []]
  | 0, c :: rest =>
      match (rests length pattern (c :: rest)).head? with
      | none => .between c :: pieces length pattern 0 rest
      | some rest' =>
          match (c :: rest).length - rest'.length with
          | 0 => .matched [] :: .between c :: pieces length pattern 0 rest
          | size + 1 => .matched ((c :: rest).take (size + 1)) :: pieces length pattern size rest
  | _ + 1, [] => []
  | size + 1, _ :: rest => pieces length pattern size rest

def Piece.word : Piece → Option Text
  | .between _ => none
  | .matched word => some word

def Piece.replaced (replacement : Text) : Piece → Text
  | .between c => [c]
  | .matched _ => replacement

/-- `text.match(pattern)` with the `g` flag. -/
def matchAll (pattern : Pattern) (text : Text) : Option (List Text) :=
  match (pieces text.length pattern 0 text).filterMap Piece.word with
  | [] => none
  | words => some words

/-- `text.replace(pattern, replacement)` with the `g` flag. -/
def replaceAll (pattern : Pattern) (replacement text : Text) : Text :=
  (pieces text.length pattern 0 text).flatMap (Piece.replaced replacement)

theorem head?_of_forall_eq {α : Type} {items : List α} {item : α} (h : item ∈ items)
    (hitems : ∀ other ∈ items, other = item) : items.head? = some item := by
  cases items with
  | nil => cases h
  | cons first others => exact congrArg some (hitems first List.mem_cons_self)

section Steps

variable {step step' : Text → List Text} {L M : Language Char}

/-- What a step leaves is what stands behind a word of the language. -/
def StepReads (step : Text → List Text) (L : Language Char) : Prop :=
  ∀ rest rest', rest' ∈ step rest ↔ ∃ word ∈ L, word ++ rest' = rest

theorem stepReads_one : StepReads (fun rest => [rest]) 1 := by
  intro rest rest'
  rw [List.mem_singleton]
  constructor
  · rintro rfl
    exact ⟨[], Language.nil_mem_one, rfl⟩
  · rintro ⟨word, hword, heq⟩
    rwa [(Language.mem_one word).mp hword] at heq

theorem StepReads.flatMap (h : StepReads step L) (h' : StepReads step' M) :
    StepReads (fun rest => (step rest).flatMap step') (L * M) := by
  intro rest rest'
  rw [List.mem_flatMap]
  constructor
  · rintro ⟨middle, hmiddle, hrest⟩
    obtain ⟨word, hword, rfl⟩ := (h rest middle).mp hmiddle
    obtain ⟨word', hword', rfl⟩ := (h' middle rest').mp hrest
    exact ⟨word ++ word', Language.append_mem_mul hword hword', List.append_assoc ..⟩
  · rintro ⟨_, hwords, rfl⟩
    obtain ⟨word, hword, word', hword', rfl⟩ := Language.mem_mul.mp hwords
    exact ⟨word' ++ rest', (h _ _).mpr ⟨word, hword, (List.append_assoc ..).symm⟩,
      (h' _ _).mpr ⟨word', hword', rfl⟩⟩

theorem StepReads.append (h : StepReads step L) (h' : StepReads step' M) :
    StepReads (fun rest => step rest ++ step' rest) (L + M) := by
  intro rest rest'
  rw [List.mem_append, h, h']
  constructor
  · rintro (⟨word, hword, heq⟩ | ⟨word, hword, heq⟩)
    · exact ⟨word, .inl hword, heq⟩
    · exact ⟨word, .inr hword, heq⟩
  · rintro ⟨word, hword | hword, heq⟩
    · exact .inl ⟨word, hword, heq⟩
    · exact .inr ⟨word, hword, heq⟩

/-- A step that reads something leaves less. -/
theorem StepReads.filter_ne (h : StepReads step L) (hL : [] ∉ L) (rest : Text) :
    (step rest).filter (· ≠ rest) = step rest := by
  rw [List.filter_eq_self]
  intro rest' hrest'
  obtain ⟨word, hword, heq⟩ := (h _ _).mp hrest'
  rw [decide_eq_true_eq]
  rintro rfl
  exact hL (List.append_left_eq_self.mp heq ▸ hword)

/-- As many words of a language as the bounds say. -/
def powers (L : Language Char) (least most : ℕ) : Language Char :=
  {word | ∃ n, least ≤ n ∧ n ≤ most ∧ word ∈ L ^ n}

theorem powers_zero (L : Language Char) : powers L 0 0 = 1 := by
  ext word
  constructor
  · rintro ⟨n, -, hn, hword⟩
    rwa [Nat.le_zero.mp hn, pow_zero] at hword
  · intro hword
    exact ⟨0, le_rfl, le_rfl, hword⟩

theorem mul_powers (L : Language Char) (least most : ℕ) :
    L * powers L least most = powers L (least + 1) (most + 1) := by
  ext word
  constructor
  · rintro ⟨front, hfront, back, ⟨n, hleast, hmost, hback⟩, rfl⟩
    refine ⟨n + 1, Nat.succ_le_succ hleast, Nat.succ_le_succ hmost, ?_⟩
    rw [pow_succ']
    exact Language.append_mem_mul hfront hback
  · rintro ⟨_ | n, hleast, hmost, hword⟩
    · exact absurd hleast (Nat.not_succ_le_zero least)
    · rw [pow_succ', Language.mem_mul] at hword
      obtain ⟨front, hfront, back, hback, rfl⟩ := hword
      exact Language.append_mem_mul hfront
        ⟨n, Nat.le_of_succ_le_succ hleast, Nat.le_of_succ_le_succ hmost, hback⟩

theorem mul_powers_add_one (L : Language Char) (most : ℕ) :
    L * powers L 0 most + 1 = powers L 0 (most + 1) := by
  rw [mul_powers]
  ext word
  constructor
  · rintro (⟨n, -, hmost, hword⟩ | hword)
    · exact ⟨n, Nat.zero_le n, hmost, hword⟩
    · exact ⟨0, le_rfl, Nat.zero_le _, hword⟩
  · rintro ⟨_ | n, -, hmost, hword⟩
    · exact .inr hword
    · exact .inl ⟨n + 1, Nat.succ_le_succ (Nat.zero_le n), hmost, hword⟩

/-- A step is repeated as often as the bounds say. -/
theorem StepReads.repeated (h : StepReads step L) (hL : [] ∉ L) {most least : ℕ}
    (hle : least ≤ most) : StepReads (repeatedRests step most least) (powers L least most) := by
  induction most generalizing least with
  | zero =>
    rw [Nat.le_zero.mp hle, powers_zero]
    exact stepReads_one
  | succ most ih =>
    cases least with
    | succ least =>
      rw [← mul_powers]
      exact h.flatMap (ih (Nat.le_of_succ_le_succ hle))
    | zero =>
      have hrests : repeatedRests step (most + 1) 0 =
          fun rest => (step rest).flatMap (repeatedRests step most 0) ++ [rest] := by
        funext rest
        rw [repeatedRests, h.filter_ne hL]
      rw [hrests, ← mul_powers_add_one]
      exact (h.flatMap (ih (Nat.zero_le most))).append stepReads_one

/-- A word of so many words, none of them empty, is not shorter than that. -/
theorem le_length_of_mem_pow (hL : [] ∉ L) {n : ℕ} {word : Text} (h : word ∈ L ^ n) :
    n ≤ word.length := by
  induction n generalizing word with
  | zero => exact Nat.zero_le _
  | succ n ih =>
    rw [pow_succ', Language.mem_mul] at h
    obtain ⟨front, hfront, back, hback, rfl⟩ := h
    have hpos : 0 < front.length :=
      List.length_pos_iff.mpr fun hnil => hL (hnil ▸ hfront)
    have hle := ih hback
    rw [List.length_append]
    omega

end Steps

section Reads

variable {length : ℕ} {first second body : Pattern} {L M : Language Char} {rest rest' : Text}

/-- The pattern reads the words of the language, wherever it is tried. -/
def Reads (pattern : Pattern) (L : Language Char) : Prop :=
  ∀ length, StepReads (rests length pattern) L

/-- The characters of a class. -/
def letters (test : Char → Bool) : Language Char := {word | ∃ c, test c = true ∧ word = [c]}

theorem nil_notMem_letters (test : Char → Bool) : [] ∉ letters test := by
  rintro ⟨c, -, hnil⟩
  cases hnil

theorem mem_letters_pow {test : Char → Bool} {n : ℕ} {word : Text} :
    word ∈ letters test ^ n ↔ word.length = n ∧ ∀ c ∈ word, test c = true := by
  induction n generalizing word with
  | zero =>
    rw [pow_zero, Language.mem_one, List.length_eq_zero_iff]
    exact ⟨fun h => ⟨h, h ▸ fun _ hc => absurd hc List.not_mem_nil⟩, And.left⟩
  | succ n ih =>
    rw [pow_succ', Language.mem_mul]
    constructor
    · rintro ⟨_, ⟨c, hc, rfl⟩, word, hword, rfl⟩
      obtain ⟨hlength, hall⟩ := ih.mp hword
      exact ⟨congrArg Nat.succ hlength, List.forall_mem_cons.mpr ⟨hc, hall⟩⟩
    · rintro ⟨hlength, hall⟩
      obtain ⟨c, word, rfl⟩ := List.exists_cons_of_length_eq_add_one hlength
      obtain ⟨hc, hall⟩ := List.forall_mem_cons.mp hall
      exact ⟨[c], ⟨c, hc, rfl⟩, word, ih.mpr ⟨Nat.succ.inj hlength, hall⟩, rfl⟩

theorem reads_chars (test : Char → Bool) : Reads (.chars test) (letters test) := by
  intro length rest rest'
  cases rest with
  | nil =>
    refine iff_of_false List.not_mem_nil ?_
    rintro ⟨_, ⟨c, -, rfl⟩, heq⟩
    cases heq
  | cons c rest =>
    constructor
    · intro h
      rw [rests, List.mem_ite_nil_right, List.mem_singleton] at h
      exact ⟨[c], ⟨c, h.1, rfl⟩, h.2 ▸ rfl⟩
    · rintro ⟨_, ⟨c', hc, rfl⟩, heq⟩
      obtain ⟨rfl, rfl⟩ := List.cons.inj heq
      rw [rests, if_pos hc]
      exact List.mem_singleton.mpr rfl

theorem Reads.seq (hfirst : Reads first L) (hsecond : Reads second M) :
    Reads (.seq first second) (L * M) :=
  fun length => (hfirst length).flatMap (hsecond length)

theorem Reads.repeated (h : Reads body L) (hL : [] ∉ L) {least most : ℕ} (hle : least ≤ most) :
    Reads (.repeated body least (some most)) (powers L least most) :=
  fun length => (h length).repeated hL hle

theorem Reads.counted (h : Reads body L) (hL : [] ∉ L) (n : ℕ) :
    Reads (.repeated body n (some n)) (L ^ n) := by
  have hpowers : powers L n n = L ^ n := by
    ext word
    constructor
    · rintro ⟨n', hleast, hmost, hword⟩
      rwa [le_antisymm hmost hleast] at hword
    · exact fun hword => ⟨n, le_rfl, le_rfl, hword⟩
  exact hpowers ▸ h.repeated hL le_rfl

/-- No word of nonempty words has more of them than characters. -/
theorem Reads.unbounded (h : Reads body L) (hL : [] ∉ L) (least : ℕ) :
    Reads (.repeated body least none) {word | ∃ n, least ≤ n ∧ word ∈ L ^ n} := by
  intro length rest rest'
  rw [rests, Option.getD_none, (h length).repeated hL (Nat.le_add_right _ _)]
  constructor
  · rintro ⟨word, ⟨n, hleast, -, hword⟩, heq⟩
    exact ⟨word, ⟨n, hleast, hword⟩, heq⟩
  · rintro ⟨word, ⟨n, hleast, hword⟩, rfl⟩
    have hle := le_length_of_mem_pow hL hword
    refine ⟨word, ⟨n, hleast, ?_, hword⟩, rfl⟩
    rw [List.length_append]
    omega

/-- Where every word has the same length, what is left does not depend on backtracking. -/
theorem Reads.head?_rests {pattern : Pattern} (h : Reads pattern L) {n : ℕ}
    (hlength : ∀ word ∈ L, word.length = n) {word : Text} (hword : word ∈ L) :
    (rests length pattern (word ++ rest)).head? = some rest := by
  refine head?_of_forall_eq ((h _ _ _).mpr ⟨word, hword, rfl⟩) fun rest' hrest' => ?_
  obtain ⟨word', hword', heq⟩ := (h _ _ _).mp hrest'
  exact (List.append_inj heq ((hlength word' hword').trans (hlength word hword).symm)).2

theorem Reads.rests_eq_nil {pattern : Pattern} (h : Reads pattern L) :
    rests length pattern rest = [] ↔ ∀ word ∈ L, ¬ word <+: rest := by
  rw [List.eq_nil_iff_forall_not_mem]
  constructor
  · rintro hnone word hword ⟨rest', heq⟩
    exact hnone rest' ((h _ _ _).mpr ⟨word, hword, heq⟩)
  · intro hnone rest' hrest'
    obtain ⟨word, hword, heq⟩ := (h _ _ _).mp hrest'
    exact hnone word hword ⟨rest', heq⟩

/-- A match up to the end. -/
theorem Reads.rests_stop (h : Reads body L) :
    rests length (.seq body .stop) rest ≠ [] ↔ rest ∈ L := by
  constructor
  · intro hmatch
    obtain ⟨rest', hrest'⟩ := List.exists_mem_of_ne_nil _ hmatch
    obtain ⟨middle, hmiddle, hstop⟩ := List.mem_flatMap.mp hrest'
    obtain ⟨word, hword, rfl⟩ := (h _ _ _).mp hmiddle
    rw [rests, List.mem_ite_nil_right] at hstop
    rwa [hstop.1, List.append_nil]
  · intro hrest
    have hstop : [] ∈ rests length .stop [] := List.mem_singleton.mpr rfl
    exact List.ne_nil_of_mem (List.mem_flatMap.mpr
      ⟨[], (h _ _ _).mpr ⟨rest, hrest, List.append_nil _⟩, hstop⟩)

theorem rests_ahead : rests length (.seq first (.ahead second)) rest =
    (rests length first rest).filter fun rest' => rests length second rest' ≠ [] := by
  rw [rests]
  induction rests length first rest with
  | nil => rfl
  | cons middle others ih =>
    rw [List.flatMap_cons, ih, List.filter_cons, rests]
    by_cases hnone : rests length second middle = [] <;> simp [hnone]

theorem rests_start : rests length (.seq .start body) rest =
    if rest.length = length then rests length body rest else [] := by
  rw [rests, rests]
  split
  · exact List.flatMap_singleton ..
  · rfl

/-- A pattern for the whole text. -/
theorem Reads.test_whole (h : Reads body L) {text : Text} :
    test (.seq .start (.seq body .stop)) text = true ↔ text ∈ L := by
  rw [test, List.any_eq_true]
  constructor
  · rintro ⟨rest, hsuffix, hmatch⟩
    rw [Bool.not_eq_true', List.isEmpty_eq_false_iff, rests_start] at hmatch
    split at hmatch
    next hlength =>
      obtain rfl := ((List.mem_tails _ _).mp hsuffix).eq_of_length hlength
      exact h.rests_stop.mp hmatch
    next => exact absurd rfl hmatch
  · intro htext
    refine ⟨text, (List.mem_tails _ _).mpr (List.suffix_refl text), ?_⟩
    rw [Bool.not_eq_true', List.isEmpty_eq_false_iff, rests_start, if_pos rfl]
    exact h.rests_stop.mpr htext

end Reads

section Replace

variable {length : ℕ} {pattern body : Pattern} {L : Language Char} {replacement text : Text}

theorem replaceFrom_of_no_match
    (h : ∀ rest, rest <:+ text → rests length pattern rest = []) :
    replaceFrom length pattern replacement text = text := by
  induction text with
  | nil => rw [replaceFrom, if_pos (h [] (List.suffix_refl []))]
  | cons c rest ih =>
    have hrest := ih fun rest' hrest' => h rest' (hrest'.trans (List.suffix_cons c rest))
    rw [replaceFrom, h _ (List.suffix_refl _), List.head?_nil]
    exact congrArg (List.cons c) hrest

/-- A pattern for the start of the text. -/
theorem Reads.replace_start (h : Reads body L) {n : ℕ} (hlength : ∀ word ∈ L, word.length = n)
    {word rest : Text} (hword : word ∈ L) :
    replace (.seq .start body) replacement (word ++ rest) = replacement ++ rest := by
  have hhead : (rests (word ++ rest).length (.seq .start body) (word ++ rest)).head? =
      some rest := by
    rw [rests_start, if_pos rfl, h.head?_rests hlength hword]
  rw [replace]
  cases htext : word ++ rest with
  | nil =>
    rw [htext] at hhead
    obtain ⟨-, rfl⟩ := List.append_eq_nil_iff.mp htext
    have hmatch : rests ([] : Text).length (.seq .start body) [] ≠ [] := fun hnil => by
      rw [hnil] at hhead
      cases hhead
    rw [replaceFrom, if_neg hmatch, List.append_nil]
  | cons c text =>
    rw [htext] at hhead
    rw [replaceFrom, hhead]

theorem Reads.replace_start_of_not (h : Reads body L) (hnone : ∀ word ∈ L, ¬ word <+: text) :
    replace (.seq .start body) replacement text = text := by
  refine replaceFrom_of_no_match fun rest hrest => ?_
  rw [rests_start]
  split
  next hlength =>
    obtain rfl := hrest.eq_of_length hlength
    exact h.rests_eq_nil.mpr hnone
  next => rfl

end Replace

section Pieces

variable {length : ℕ} {pattern : Pattern} {L : Language Char}

theorem pieces_skip (length : ℕ) (pattern : Pattern) (front rest : Text) :
    pieces length pattern front.length (front ++ rest) = pieces length pattern 0 rest := by
  induction front with
  | nil => rfl
  | cons c front ih => exact ih

theorem pieces_matched {word rest : Text} (hword : word ≠ [])
    (h : (rests length pattern (word ++ rest)).head? = some rest) :
    pieces length pattern 0 (word ++ rest) = .matched word :: pieces length pattern 0 rest := by
  obtain ⟨c, word, rfl⟩ := List.exists_cons_of_ne_nil hword
  have hsize : (c :: (word ++ rest)).length - rest.length = word.length + 1 := by
    rw [List.length_cons, List.length_append]
    omega
  rw [List.cons_append] at h ⊢
  rw [pieces, h]
  simp only [hsize]
  rw [pieces_skip, List.take_succ_cons, List.take_left]

theorem pieces_between {c : Char} {rest : Text} (h : rests length pattern (c :: rest) = []) :
    pieces length pattern 0 (c :: rest) = .between c :: pieces length pattern 0 rest := by
  rw [pieces, h, List.head?_nil]

theorem pieces_nil (h : rests length pattern [] = []) : pieces length pattern 0 [] = [] :=
  if_pos h

/-- Matches that tile the text are all there are. -/
theorem matchAll_of_pieces {text : Text} {words : List Text}
    (h : pieces text.length pattern 0 text = words.map .matched) (hwords : words ≠ []) :
    matchAll pattern text = some words := by
  have hfilter : (words.map Piece.matched).filterMap Piece.word = words := by
    rw [List.filterMap_map]
    exact List.filterMap_some
  obtain ⟨word, words, rfl⟩ := List.exists_cons_of_ne_nil hwords
  rw [matchAll, h, hfilter]

/-- A text in which nothing matches is left as it is. -/
theorem Reads.replaceAll_of_no_match (h : Reads pattern L) (replacement : Text) {text : Text}
    (hnone : ∀ word ∈ L, ¬ word <:+: text) : replaceAll pattern replacement text = text := by
  rw [replaceAll]
  generalize text.length = length
  induction text with
  | nil => rw [pieces_nil (h.rests_eq_nil.mpr fun word hword hstarts =>
      hnone word hword hstarts.isInfix), List.flatMap_nil]
  | cons c rest ih =>
    have hmatch : rests length pattern (c :: rest) = [] :=
      h.rests_eq_nil.mpr fun word hword hstarts => hnone word hword hstarts.isInfix
    rw [pieces_between hmatch, List.flatMap_cons, ih fun word hword hinfix =>
      hnone word hword (List.infix_cons hinfix)]
    rfl

end Pieces

end Library.RegularExpressions
