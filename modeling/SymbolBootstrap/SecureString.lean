import SymbolBootstrap.Library.ClassRuns
import SymbolBootstrap.Library.RegularExpressions

/-!
The masking of keys in what is logged. The scan takes 64 characters of a run after the other,
so at most 63 are left of it, and the word that it puts in begins and ends with a character that
is not hexadecimal.
-/
namespace SymbolBootstrap.SecureString

open Library.Texts Library.RegularExpressions Library.ClassRuns

/-- `[0-9a-fA-F]{64}`. -/
def keyPattern : Pattern := .repeated (.chars isHexDigit) 64 (some 64)

def hiddenKey : Text := "HIDDEN_KEY".toList

def secureString (text : Text) : Text := replaceAll keyPattern hiddenKey text

/-- Each 64 characters of a run hidden, and the last ones that are left. -/
def masked (run : Text) : Text :=
  (List.replicate (run.length / 64) hiddenKey).flatten ++ run.rtake (run.length % 64)

/-- Somewhere 64 hexadecimal characters follow one another. -/
def HoldsKey (text : Text) : Prop :=
  ∃ key, key <:+: text ∧ key.length = 64 ∧ ∀ c ∈ key, isHexDigit c = true

section Scan

variable {length : ℕ}

theorem reads_keyPattern : Reads keyPattern (letters isHexDigit ^ 64) :=
  (reads_chars isHexDigit).counted (nil_notMem_letters isHexDigit) 64

/-- What is made of a rest of the text. -/
def scanned (length : ℕ) (rest : Text) : Text :=
  (pieces length keyPattern 0 rest).flatMap (Piece.replaced hiddenKey)

theorem scanned_nil : scanned length [] = [] := by
  rw [scanned, pieces_nil (reads_keyPattern.rests_eq_nil.mpr _), List.flatMap_nil]
  intro word hword hstarts
  rw [List.prefix_nil.mp hstarts] at hword
  exact absurd (mem_letters_pow.mp hword).1 (by decide)

theorem scanned_key {key rest : Text} (hlength : key.length = 64)
    (hkey : ∀ c ∈ key, isHexDigit c = true) :
    scanned length (key ++ rest) = hiddenKey ++ scanned length rest := by
  have hne : key ≠ [] := List.ne_nil_of_length_pos (by omega)
  have hmatch : (rests length keyPattern (key ++ rest)).head? = some rest :=
    reads_keyPattern.head?_rests (fun word hword => (mem_letters_pow.mp hword).1)
      (mem_letters_pow.mpr ⟨hlength, hkey⟩)
  rw [scanned, pieces_matched hne hmatch, List.flatMap_cons]
  rfl

theorem scanned_cons {c : Char} {rest : Text}
    (h : ∀ key ∈ letters isHexDigit ^ 64, ¬ key <+: c :: rest) :
    scanned length (c :: rest) = c :: scanned length rest := by
  rw [scanned, pieces_between (reads_keyPattern.rests_eq_nil.mpr h), List.flatMap_cons]
  rfl

theorem scanned_other (other : Other isHexDigit) (rest : Text) :
    scanned length (other.item :: rest) = other.item :: scanned length rest := by
  refine scanned_cons fun key hkey hstarts => ?_
  obtain ⟨hlength, hhex⟩ := mem_letters_pow.mp hkey
  obtain ⟨c, key, rfl⟩ := List.exists_cons_of_length_eq_add_one hlength
  have hother := hhex c List.mem_cons_self
  rw [(List.cons_prefix_cons.mp hstarts).1, other.test_item] at hother
  cases hother

/-- What ends a run: nothing, or a character that is not hexadecimal. -/
def Ends (rest : Text) : Prop := ∀ c ∈ rest.head?, isHexDigit c = false

/-- A run that is too short for a key is left as it is. -/
theorem scanned_short {run rest : Text} (hrest : Ends rest) (hlength : run.length < 64) :
    scanned length (run ++ rest) = run ++ scanned length rest := by
  induction run with
  | nil => rfl
  | cons c run ih =>
    rw [List.length_cons] at hlength
    rw [List.cons_append, scanned_cons, ih (by omega), List.cons_append]
    intro key hkey hstarts
    obtain ⟨hkeyLength, hhex⟩ := mem_letters_pow.mp hkey
    -- the key would go on behind the run, where no hexadecimal character is
    have hlonger : c :: run <+: key := List.prefix_of_prefix_length_le
      (List.prefix_append (c :: run) rest) hstarts (by rw [List.length_cons]; omega)
    obtain ⟨back, rfl⟩ := hlonger
    have hback : back <+: rest := (List.prefix_append_right_inj (c :: run)).mp hstarts
    cases back with
    | nil =>
      rw [List.append_nil, List.length_cons] at hkeyLength
      omega
    | cons d back =>
      obtain ⟨rest, rfl⟩ := hback
      have hd := hhex d (List.mem_append_right _ List.mem_cons_self)
      rw [hrest d rfl] at hd
      cases hd

theorem masked_short {run : Text} (h : run.length < 64) : masked run = run := by
  rw [masked, Nat.div_eq_of_lt h, Nat.mod_eq_of_lt h, List.rtake, Nat.sub_self]
  rfl

theorem masked_key {key run : Text} (h : key.length = 64) :
    masked (key ++ run) = hiddenKey ++ masked run := by
  have hdiv : (key ++ run).length / 64 = run.length / 64 + 1 := by
    rw [List.length_append]
    omega
  have hmod : (key ++ run).length % 64 = run.length % 64 := by
    rw [List.length_append]
    omega
  have htake : (key ++ run).rtake (run.length % 64) = run.rtake (run.length % 64) := by
    have hle := Nat.mod_le run.length 64
    have hdrop : (key ++ run).length - run.length % 64 =
        key.length + (run.length - run.length % 64) := by
      rw [List.length_append]
      omega
    rw [List.rtake, hdrop, ← List.drop_drop, List.drop_left, List.rtake]
  rw [masked, hdiv, hmod, htake, List.replicate_succ, List.flatten_cons, List.append_assoc, masked]

/-- A run is masked up to its end. -/
theorem scanned_run {run rest : Text} (hrun : ∀ c ∈ run, isHexDigit c = true)
    (hrest : Ends rest) : scanned length (run ++ rest) = masked run ++ scanned length rest := by
  induction hlength : run.length using Nat.strong_induction_on generalizing run with
  | h size ih =>
    rcases Nat.lt_or_ge run.length 64 with hshort | hlong
    · rw [scanned_short hrest hshort, masked_short hshort]
    · obtain ⟨key, run, rfl, hkey⟩ : ∃ key back, run = key ++ back ∧ key.length = 64 :=
        ⟨run.take 64, run.drop 64, (List.take_append_drop 64 run).symm,
          List.length_take_of_le hlong⟩
      rw [List.length_append] at hlength
      rw [List.append_assoc, scanned_key hkey fun c hc => hrun c (List.mem_append_left _ hc),
        ih run.length (by omega) (fun c hc => hrun c (List.mem_append_right _ hc)) rfl,
        masked_key hkey, List.append_assoc]

theorem ends_others (others : List (Other isHexDigit × Run isHexDigit)) :
    Ends (others.flatMap fun other => other.1.item :: other.2.items) := by
  cases others with
  | nil => exact nofun
  | cons other others =>
    rintro c hc
    rw [← Option.mem_some.mp hc]
    exact other.1.test_item

/-- The runs behind the first one, each with the character before it. -/
theorem scanned_others (others : List (Other isHexDigit × Run isHexDigit)) :
    scanned length (others.flatMap fun other => other.1.item :: other.2.items) =
      others.flatMap fun other => other.1.item :: masked other.2.items := by
  induction others with
  | nil => exact scanned_nil
  | cons other others ih =>
    rw [List.flatMap_cons, List.flatMap_cons, List.cons_append, List.cons_append, scanned_other,
      scanned_run other.2.test_items (ends_others others), ih]

/-- The runs are masked and what stands between them is kept. -/
theorem secureString_runs (runs : Runs isHexDigit) :
    secureString runs.items = runs.replaced masked := by
  show scanned _ (runs.first.items ++
    runs.others.flatMap fun other => other.1.item :: other.2.items) = _
  rw [scanned_run runs.first.test_items (ends_others runs.others)]
  exact congrArg (masked runs.first.items ++ ·) (scanned_others runs.others)

end Scan

section Keys

theorem not_holdsKey_short {text : Text} (h : text.length < 64) : ¬ HoldsKey text := by
  rintro ⟨key, hinfix, hlength, -⟩
  have hle := hinfix.length_le
  omega

theorem not_holdsKey_append {front back : Text} (other : Other isHexDigit)
    (hfront : ¬ HoldsKey front) (hback : ¬ HoldsKey back) :
    ¬ HoldsKey (front ++ other.item :: back) := by
  rintro ⟨key, hinfix, hlength, hhex⟩
  rcases infix_append_cons hhex other.test_item hinfix with hinfix | hinfix
  · exact hfront ⟨key, hinfix, hlength, hhex⟩
  · exact hback ⟨key, hinfix, hlength, hhex⟩

/-- The hidden keys end with a character that is not hexadecimal. -/
theorem not_holdsKey_hidden {text : Text} (n : ℕ) (h : ¬ HoldsKey text) :
    ¬ HoldsKey ((List.replicate n hiddenKey).flatten ++ text) := by
  induction n with
  | zero => exact h
  | succ n ih =>
    have hback := @not_holdsKey_append "HIDDEN_KE".toList _ ⟨'Y', rfl⟩
      (not_holdsKey_short (by decide)) ih
    rw [List.replicate_succ, List.flatten_cons, List.append_assoc]
    exact hback

theorem not_holdsKey_masked (run : Text) : ¬ HoldsKey (masked run) := by
  refine not_holdsKey_hidden _ (not_holdsKey_short ?_)
  rw [List.rtake, List.length_drop]
  omega

theorem not_holdsKey_replaced (runs : Runs isHexDigit) : ¬ HoldsKey (runs.replaced masked) := by
  have hothers : ∀ (others : List (Other isHexDigit × Run isHexDigit)) (front : Text),
      ¬ HoldsKey front → ¬ HoldsKey (front ++
        others.flatMap fun other => other.1.item :: masked other.2.items) := by
    intro others
    induction others with
    | nil =>
      intro front hfront
      rwa [List.flatMap_nil, List.append_nil]
    | cons other others ih =>
      intro front hfront
      rw [List.flatMap_cons, List.cons_append]
      exact not_holdsKey_append other.1 hfront (ih _ (not_holdsKey_masked other.2.items))
  exact hothers runs.others _ (not_holdsKey_masked runs.first.items)

theorem secureString_of_not_holdsKey {text : Text} (h : ¬ HoldsKey text) :
    secureString text = text := by
  refine reads_keyPattern.replaceAll_of_no_match hiddenKey fun key hkey hinfix => ?_
  obtain ⟨hlength, hhex⟩ := mem_letters_pow.mp hkey
  exact h ⟨key, hinfix, hlength, hhex⟩

end Keys

/-- The runs of hexadecimal characters of a text are masked, all of it that is not in such a run
is kept, no key is left and what is masked stays as it is. -/
theorem secureString_masks_runs (text : Text) :
    (∃ runs : Runs isHexDigit, runs.items = text) ∧
    (∀ runs : Runs isHexDigit, runs.items = text → secureString text = runs.replaced masked) ∧
    ¬ HoldsKey (secureString text) ∧
    secureString (secureString text) = secureString text := by
  obtain ⟨runs, rfl⟩ := exists_runs isHexDigit text
  have hkey : ¬ HoldsKey (secureString runs.items) := by
    rw [secureString_runs]
    exact not_holdsKey_replaced runs
  refine ⟨⟨runs, rfl⟩, ?_, hkey, secureString_of_not_holdsKey hkey⟩
  rintro runs' heq
  rw [← heq, secureString_runs]

example : secureString
    "--secret=9F9D35D4BFA630012F074AAE11CF12191105EBA1435036FEF6AFAD8088918A62 -s".toList =
      "--secret=HIDDEN_KEY -s".toList := by
  decide +kernel

end SymbolBootstrap.SecureString
