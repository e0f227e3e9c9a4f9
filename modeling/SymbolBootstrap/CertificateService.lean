import SymbolBootstrap.Library.CaseMapping
import SymbolBootstrap.Library.Searching
import SymbolBootstrap.Library.Texts
import SymbolBootstrap.Library.Throwing

/-!
The keys read from what openssl prints. Each `priv:` is taken to begin a pair, and the first
`pub:` and the first `Certificate` after it end its keys, whatever the certificates print
themselves. A key is only checked to have 64 characters. Positions count characters.
-/
namespace SymbolBootstrap.CertificateService

open Library.CaseMapping Library.Searching Library.Texts Library.Throwing

structure CertificatePair where
  privateKey : Text
  publicKey : Text
deriving DecidableEq

/-- The characters of a block, without the colons and the white space around its parts. -/
def joined (subtext : Text) : Text := (((trim subtext).splitOn ':').map trim).flatten

def extractKey (subtext : Text) : Except String Text :=
  let key := joined subtext
  if key = [] ∨ utf16Length key ≠ 64 then
    throw ("SSL Certificate key cannot be loaded from the openssl script. Output: \n" ++
      String.ofList subtext)
  else return key.flatMap upperChar

/-- `from`, `middle` and `to`. -/
def fromMarker : Text := ['p', 'r', 'i', 'v', ':']
def middleMarker : Text := ['p', 'u', 'b', ':']
def toMarker : Text := ['C', 'e', 'r', 't', 'i', 'f', 'i', 'c', 'a', 't', 'e']

def privateBlock (stdout : Text) (index : ℕ) : Text :=
  substring stdout (index + fromMarker.length) (indexOf stdout middleMarker index)

def publicBlock (stdout : Text) (index : ℕ) : Text :=
  substring stdout (indexOf stdout middleMarker index + middleMarker.length)
    (indexOf stdout toMarker index)

def certificateAt (stdout : Text) (index : ℕ) : Except String CertificatePair := do
  let privateKey ← extractKey (privateBlock stdout index)
  let publicKey ← extractKey (publicBlock stdout index)
  return ⟨privateKey, publicKey⟩

def getCertificates (stdout : Text) : Except String (List CertificatePair) :=
  (locations stdout fromMarker).mapM (certificateAt stdout)

/-- The blocks of which keys are made. -/
def extractedBlocks (stdout : Text) : List Text :=
  (locations stdout fromMarker).flatMap fun index =>
    [privateBlock stdout index, publicBlock stdout index]

/-- A hexadecimal digit of either case. -/
def IsDigit (n : ℕ) (c : Char) : Prop := c = n.digitChar ∨ c = n.digitChar.toUpper

def IsByte (b : UInt8) (text : Text) : Prop :=
  ∃ high low, text = [high, low] ∧ IsDigit (b.toNat / 16) high ∧ IsDigit (b.toNat % 16) low

/-- What divides two bytes: a colon, with white space around it where a line is wrapped. -/
def Separates (gap : Text) : Prop :=
  ∃ before after, gap = before ++ ':' :: after ∧ Blank before ∧ Blank after

inductive PrintedBytes : List UInt8 → Text → Prop
  | one {b : UInt8} {digits : Text} (hdigits : IsByte b digits) : PrintedBytes [b] digits
  | cons {b next : UInt8} {rest : List UInt8} {digits gap text : Text} (hdigits : IsByte b digits)
      (hgap : Separates gap) (hrest : PrintedBytes (next :: rest) text) :
      PrintedBytes (b :: next :: rest) (digits ++ gap ++ text)

/-- A block of a key, with white space around it. -/
def IsBlock (key : List UInt8) (block : Text) : Prop :=
  ∃ before text after, block = before ++ text ++ after ∧ Blank before ∧ Blank after ∧
    PrintedBytes key text

def hexUpper (b : UInt8) : Text :=
  [(b.toNat / 16).digitChar.toUpper, (b.toNat % 16).digitChar.toUpper]

/-- A pair of keys of 32 bytes as it is printed, with the text up to the next pair. -/
structure PrintedPair where
  privateKey : List UInt8
  publicKey : List UInt8
  privateText : Text
  publicText : Text
  other : Text
  privateKey_length : privateKey.length = 32
  publicKey_length : publicKey.length = 32
  privateText_block : IsBlock privateKey privateText
  publicText_block : IsBlock publicKey publicText
  other_free : ¬ fromMarker <:+: other

def PrintedPair.text (p : PrintedPair) : Text :=
  fromMarker ++ (p.privateText ++ (middleMarker ++ (p.publicText ++ (toMarker ++ p.other))))

def PrintedPair.pair (p : PrintedPair) : CertificatePair :=
  ⟨p.privateKey.flatMap hexUpper, p.publicKey.flatMap hexUpper⟩

section Blocks

/-- What the code can tell of a digit. -/
theorem digit_facts : ∀ n < 16, ∀ c ∈ [n.digitChar, n.digitChar.toUpper],
    upperChar c = [n.digitChar.toUpper] ∧ isWhitespace c = false ∧ codeUnits c = 1 ∧
      c ≠ ':' ∧ c ≠ 'p' ∧ c ≠ 't' ∧ c ≠ 'u' := by
  simp only [List.forall_mem_cons, List.not_mem_nil, false_implies, implies_true, and_true]
  decide

theorem IsDigit.facts {n : ℕ} {c : Char} (h : IsDigit n c) (hn : n < 16) :
    upperChar c = [n.digitChar.toUpper] ∧ isWhitespace c = false ∧ codeUnits c = 1 ∧
      c ≠ ':' ∧ c ≠ 'p' ∧ c ≠ 't' ∧ c ≠ 'u' := by
  refine digit_facts n hn c ?_
  rcases h with rfl | rfl
  · exact List.mem_cons_self
  · exact List.mem_cons_of_mem _ List.mem_cons_self

/-- The two digits of a byte. -/
theorem IsByte.facts {b : UInt8} {digits : Text} (h : IsByte b digits) :
    digits.flatMap upperChar = hexUpper b ∧ utf16Length digits = 2 ∧ digits ≠ [] ∧
      ∀ c ∈ digits, isWhitespace c = false ∧ c ≠ ':' ∧ c ≠ 'p' ∧ c ≠ 't' ∧ c ≠ 'u' := by
  obtain ⟨high, low, rfl, hhigh, hlow⟩ := h
  have hlt := b.toNat_lt
  obtain ⟨hupper, hspace, hunit, hother⟩ := hhigh.facts (by omega)
  obtain ⟨hupper', hspace', hunit', hother'⟩ := hlow.facts (by omega)
  refine ⟨?_, ?_, List.cons_ne_nil _ _, ?_⟩
  · rw [List.flatMap_cons, List.flatMap_cons, hupper, hupper']
    rfl
  · simp [utf16Length, hunit, hunit']
  · intro c hc
    rcases List.mem_cons.mp hc with rfl | hc
    · exact ⟨hspace, hother⟩
    · rw [List.mem_singleton.mp hc]
      exact ⟨hspace', hother'⟩

theorem IsByte.trimmed {b : UInt8} {digits : Text} (h : IsByte b digits) : Trimmed digits :=
  ⟨fun c hc => (h.facts.2.2.2 c (List.mem_of_mem_head? hc)).1,
    fun c hc => (h.facts.2.2.2 c (List.mem_of_mem_getLast? hc)).1⟩

theorem colon_not_mem_blank {space : Text} (h : Blank space) : ':' ∉ space := by
  intro hmem
  have hspace := h ':' hmem
  revert hspace
  decide

/-- A letter that is neither a digit nor white space nor a colon is in no block. -/
theorem PrintedBytes.not_mem {key : List UInt8} {text : Text} (h : PrintedBytes key text)
    {letter : Char} (hdigits : ∀ b digits, IsByte b digits → letter ∉ digits)
    (hspace : isWhitespace letter = false) (hcolon : letter ≠ ':') : letter ∉ text := by
  have hblank : ∀ space, Blank space → letter ∉ space := by
    intro space hblank hmem
    rw [hblank letter hmem] at hspace
    cases hspace
  induction h with
  | one hbyte => exact hdigits _ _ hbyte
  | cons hbyte hgap _ ih =>
    obtain ⟨before, after, rfl, hbefore, hafter⟩ := hgap
    simp only [List.mem_append, List.mem_cons, not_or]
    exact ⟨⟨hdigits _ _ hbyte, hblank _ hbefore, hcolon, hblank _ hafter⟩, ih⟩

theorem PrintedBytes.ne_nil {key : List UInt8} {text : Text} (h : PrintedBytes key text) :
    text ≠ [] := by
  cases h with
  | one hbyte => exact hbyte.facts.2.2.1
  | cons hbyte _ _ =>
    exact List.append_ne_nil_of_left_ne_nil
      (List.append_ne_nil_of_left_ne_nil hbyte.facts.2.2.1 _) _

theorem PrintedBytes.trimmed {key : List UInt8} {text : Text} (h : PrintedBytes key text) :
    Trimmed text := by
  induction h with
  | one hbyte => exact hbyte.trimmed
  | cons hbyte hgap hrest ih =>
    constructor
    · rw [List.append_assoc, List.head?_append_of_ne_nil _ hbyte.facts.2.2.1]
      exact hbyte.trimmed.1
    · rw [List.getLast?_append_of_ne_nil _ hrest.ne_nil]
      exact ih.2

/-- A byte with white space around it is one part. -/
theorem splitOn_part {before after : Text} (hbefore : Blank before) (hafter : Blank after)
    {b : UInt8} {digits : Text} (hbyte : IsByte b digits) :
    ':' ∉ before ++ digits ++ after ∧ trim (before ++ digits ++ after) = digits := by
  refine ⟨?_, trim_padded hbefore hafter hbyte.trimmed⟩
  rw [List.mem_append, List.mem_append, not_or, not_or]
  exact ⟨⟨colon_not_mem_blank hbefore, fun h => (hbyte.facts.2.2.2 ':' h).2.1 rfl⟩,
    colon_not_mem_blank hafter⟩

/-- The parts between the colons, each trimmed, are the digits of the bytes. -/
theorem PrintedBytes.joined_split {key : List UInt8} {text : Text} (h : PrintedBytes key text)
    {space : Text} (hspace : Blank space) :
    (((space ++ text).splitOn ':').map trim).flatten.flatMap upperChar = key.flatMap hexUpper ∧
      utf16Length (((space ++ text).splitOn ':').map trim).flatten = 2 * key.length := by
  induction h generalizing space with
  | @one b digits hbyte =>
    obtain ⟨hupper, hlength, -, -⟩ := hbyte.facts
    have hsplit := splitOn_part hspace blank_nil hbyte
    rw [List.append_nil] at hsplit
    rw [List.splitOn_eq_singleton hsplit.1, List.map_singleton, hsplit.2, List.flatten_singleton]
    exact ⟨by rw [hupper]; simp, by rw [hlength]; rfl⟩
  | @cons b next rest digits gap text hbyte hgap _ ih =>
    obtain ⟨before, after, rfl, hbefore, hafter⟩ := hgap
    obtain ⟨hupper, hlength, -, -⟩ := hbyte.facts
    obtain ⟨hcolon, htrim⟩ := splitOn_part hspace hbefore hbyte
    obtain ⟨ihupper, ihlength⟩ := ih hafter
    have htext : space ++ (digits ++ (before ++ ':' :: after) ++ text) =
        (space ++ digits ++ before) ++ ':' :: (after ++ text) := by simp
    rw [htext, List.splitOn_append_cons_self, List.splitOn_eq_singleton hcolon, List.map_append,
      List.map_singleton, htrim, List.flatten_append, List.flatten_singleton]
    constructor
    · rw [List.flatMap_append, hupper, ihupper]
      exact List.flatMap_cons.symm
    · rw [utf16Length_append, hlength, ihlength]
      simp only [List.length_cons]
      omega

theorem IsBlock.extractKey {key : List UInt8} {block : Text} (h : IsBlock key block)
    (hlength : key.length = 32) :
    CertificateService.extractKey block = .ok (key.flatMap hexUpper) := by
  obtain ⟨before, text, after, rfl, hbefore, hafter, hprinted⟩ := h
  have hjoined : joined (before ++ text ++ after) = ((text.splitOn ':').map trim).flatten := by
    rw [joined, trim_padded hbefore hafter hprinted.trimmed]
  obtain ⟨hupper, hkey⟩ := hprinted.joined_split blank_nil
  rw [List.nil_append, ← hjoined] at hupper hkey
  rw [hlength] at hkey
  have hne : joined (before ++ text ++ after) ≠ [] := by
    intro hnil
    rw [hnil] at hkey
    cases hkey
  rw [CertificateService.extractKey]
  simp only [hkey, hne, hupper, ne_eq, not_true, or_self, if_false]
  rfl

/-- What a marker begins with is in no block. -/
theorem IsBlock.not_mem {key : List UInt8} {block : Text} (h : IsBlock key block) :
    'p' ∉ block ∧ 't' ∉ block ∧ 'u' ∉ block := by
  obtain ⟨before, text, after, rfl, hbefore, hafter, hprinted⟩ := h
  have hletter : ∀ letter, isWhitespace letter = false → letter ∉ text →
      letter ∉ before ++ text ++ after := by
    intro letter hspace htext
    rw [List.mem_append, List.mem_append, not_or, not_or]
    refine ⟨⟨fun hmem => ?_, htext⟩, fun hmem => ?_⟩
    · rw [hbefore letter hmem] at hspace
      cases hspace
    · rw [hafter letter hmem] at hspace
      cases hspace
  refine ⟨hletter 'p' (by decide) (hprinted.not_mem ?_ (by decide) (by decide)),
    hletter 't' (by decide) (hprinted.not_mem ?_ (by decide) (by decide)),
    hletter 'u' (by decide) (hprinted.not_mem ?_ (by decide) (by decide))⟩
  · exact fun b digits hbyte hmem => (hbyte.facts.2.2.2 'p' hmem).2.2.1 rfl
  · exact fun b digits hbyte hmem => (hbyte.facts.2.2.2 't' hmem).2.2.2.1 rfl
  · exact fun b digits hbyte hmem => (hbyte.facts.2.2.2 'u' hmem).2.2.2.2 rfl

end Blocks

section Groups

theorem unbordered_fromMarker : Unbordered fromMarker := by
  unfold Unbordered
  decide

theorem unbordered_middleMarker : Unbordered middleMarker := by
  unfold Unbordered
  decide

theorem unbordered_toMarker : Unbordered toMarker := by
  unfold Unbordered
  decide

/-- A part does not occur where one of its letters does not. -/
theorem not_infix_of_not_mem {part text : Text} {letter : Char} (hpart : letter ∈ part)
    (htext : letter ∉ text) : ¬ part <:+: text :=
  fun h => htext (h.subset hpart)

/-- A part does not begin in a text that does not hold its first letter. -/
theorem infix_append_of_not_mem {c : Char} {tail text rest : Text} (h : c ∉ text) :
    c :: tail <:+: text ++ rest ↔ c :: tail <:+: rest := by
  induction text with
  | nil => rfl
  | cons d text ih =>
    rw [List.mem_cons, not_or] at h
    rw [List.cons_append, List.infix_cons_iff, ih h.2, List.cons_prefix_cons]
    simp [h.1]

/-- Between two pairs there is no further `priv:`. -/
theorem PrintedPair.free (p : PrintedPair) : ¬ fromMarker <:+:
    p.privateText ++ (middleMarker ++ (p.publicText ++ (toMarker ++ p.other))) := by
  have hother : ¬ fromMarker <:+: p.publicText ++ (toMarker ++ p.other) := by
    rw [fromMarker, infix_append_of_not_mem p.publicText_block.not_mem.1,
      infix_append_of_not_mem (by decide)]
    exact p.other_free
  have hmiddle : ∀ rest, middleMarker ++ rest = 'p' :: (['u', 'b', ':'] ++ rest) := fun _ => rfl
  rw [fromMarker, infix_append_of_not_mem p.privateText_block.not_mem.1, hmiddle,
    List.infix_cons_iff, infix_append_of_not_mem (by decide), not_or]
  refine ⟨fun h => ?_, hother⟩
  have hletter : 'r' = 'u' := (List.cons_prefix_cons.mp (List.cons_prefix_cons.mp h).2).1
  exact absurd hletter (by decide)

theorem substring_of_drop {text front part rest : Text} {start : ℕ}
    (h : text.drop start = front ++ (part ++ rest)) :
    substring text (start + front.length : ℕ) (start + front.length + part.length : ℕ) = part := by
  have hle : ((start + front.length : ℕ) : ℤ) ≤ (start + front.length + part.length : ℕ) :=
    Int.ofNat_le.mpr (Nat.le_add_right _ _)
  rw [substring, max_eq_right hle, min_eq_left hle, Int.toNat_natCast, Int.toNat_natCast,
    List.drop_take, Nat.add_sub_cancel_left, ← List.drop_drop, h, List.drop_left, List.take_left]

theorem indexOf_of_drop {text front part rest : Text} {start : ℕ}
    (h : text.drop start = front ++ (part ++ rest)) (hpart : Unbordered part)
    (hfree : ¬ part <:+: front) : indexOf text part start = (start + front.length : ℕ) := by
  rw [indexOf, h, position_append hpart hfree]

/-- The pair printed at a position is the one read there. -/
theorem PrintedPair.certificateAt (p : PrintedPair) {stdout rest : Text} {index : ℕ}
    (h : stdout.drop index = p.text ++ rest) :
    CertificateService.certificateAt stdout index = .ok p.pair := by
  obtain ⟨-, hprivate, hprivate'⟩ := p.privateText_block.not_mem
  obtain ⟨-, hpublic, -⟩ := p.publicText_block.not_mem
  have hmiddle : indexOf stdout middleMarker index =
      (index + fromMarker.length + p.privateText.length : ℕ) := by
    rw [@indexOf_of_drop stdout (fromMarker ++ p.privateText) middleMarker
      (p.publicText ++ (toMarker ++ p.other) ++ rest) index (by rw [h, PrintedPair.text]; simp)
      unbordered_middleMarker (@not_infix_of_not_mem _ _ 'u' (by decide) ?_)]
    · rw [List.length_append, Nat.add_assoc]
    · rw [List.mem_append, not_or]
      exact ⟨by decide, hprivate'⟩
  have hto : indexOf stdout toMarker index = (index + (fromMarker.length + p.privateText.length +
      middleMarker.length) + p.publicText.length : ℕ) := by
    rw [@indexOf_of_drop stdout
      (fromMarker ++ p.privateText ++ middleMarker ++ p.publicText) toMarker
      (p.other ++ rest) index (by rw [h, PrintedPair.text]; simp)
      unbordered_toMarker (@not_infix_of_not_mem _ _ 't' (by decide) ?_)]
    · simp only [List.length_append, Nat.add_assoc]
    · simp only [List.mem_append, not_or]
      exact ⟨⟨⟨by decide, hprivate⟩, by decide⟩, hpublic⟩
  have hprivateBlock : privateBlock stdout index = p.privateText := by
    rw [privateBlock, hmiddle]
    exact @substring_of_drop stdout fromMarker p.privateText
      (middleMarker ++ (p.publicText ++ (toMarker ++ p.other)) ++ rest) index
      (by rw [h, PrintedPair.text]; simp)
  have hpublicBlock : publicBlock stdout index = p.publicText := by
    have hblock := @substring_of_drop stdout (fromMarker ++ p.privateText ++ middleMarker)
      p.publicText (toMarker ++ p.other ++ rest) index (by rw [h, PrintedPair.text]; simp)
    rw [List.length_append, List.length_append] at hblock
    have hstart : ((index + fromMarker.length + p.privateText.length : ℕ) : ℤ) +
        middleMarker.length = (index + (fromMarker.length + p.privateText.length +
          middleMarker.length) : ℕ) := by omega
    rw [publicBlock, hmiddle, hto, hstart]
    exact hblock
  rw [CertificateService.certificateAt, hprivateBlock, hpublicBlock,
    p.privateText_block.extractKey p.privateKey_length,
    p.publicText_block.extractKey p.publicKey_length]
  rfl

/-- Each `priv:` that is found begins one of the pairs, in their order. -/
theorem locations_pairs (pairs : List PrintedPair) (done : Text) {text : Text}
    (hfree : ¬ fromMarker <:+: text) :
    List.Forall₂ (fun index (p : PrintedPair) => ∃ rest,
        (done ++ (text ++ pairs.flatMap PrintedPair.text)).drop index = p.text ++ rest)
      (locationsFrom fromMarker done.length (text ++ pairs.flatMap PrintedPair.text)) pairs := by
  induction pairs generalizing done text with
  | nil =>
    rw [List.flatMap_nil, List.append_nil, locationsFrom_free hfree]
    exact .nil
  | cons p rest ih =>
    have hnext := ih (done ++ text ++ fromMarker) p.free
    have hall : text ++ (p :: rest).flatMap PrintedPair.text = text ++ (fromMarker ++
        (p.privateText ++ (middleMarker ++ (p.publicText ++ (toMarker ++ p.other))) ++
          rest.flatMap PrintedPair.text)) := by
      rw [List.flatMap_cons, PrintedPair.text, List.append_assoc fromMarker]
    rw [hall, locationsFrom_append (by decide) unbordered_fromMarker hfree]
    refine .cons ⟨rest.flatMap PrintedPair.text, ?_⟩ ?_
    · rw [← List.append_assoc done, ← List.length_append, List.drop_left, PrintedPair.text,
        List.append_assoc fromMarker]
    · rw [List.length_append, List.length_append, List.append_assoc, List.append_assoc] at hnext
      exact hnext

end Groups

/-- A key is made of a block exactly when 64 characters are left of it. -/
theorem extractKey_ok {subtext : Text} :
    (∃ key, extractKey subtext = .ok key) ↔ utf16Length (joined subtext) = 64 := by
  rw [extractKey]
  constructor
  · rintro ⟨key, hkey⟩
    by_contra hlength
    simp only [hlength, ne_eq, not_false_eq_true, or_true, if_true] at hkey
    cases hkey
  · intro hlength
    have hne : joined subtext ≠ [] := by
      intro hnil
      rw [hnil] at hlength
      cases hlength
    simp only [hne, hlength, ne_eq, not_true, or_self, if_false]
    exact ⟨_, rfl⟩

theorem certificateAt_ok {stdout : Text} {index : ℕ} :
    (∃ pair, certificateAt stdout index = .ok pair) ↔
      utf16Length (joined (privateBlock stdout index)) = 64 ∧
        utf16Length (joined (publicBlock stdout index)) = 64 := by
  rw [← extractKey_ok, ← extractKey_ok]
  constructor
  · rintro ⟨pair, h⟩
    obtain ⟨privateKey, hprivate, hrest⟩ := bind_ok.mp h
    obtain ⟨publicKey, hpublic, -⟩ := bind_ok.mp hrest
    exact ⟨⟨privateKey, hprivate⟩, ⟨publicKey, hpublic⟩⟩
  · rintro ⟨⟨privateKey, hprivate⟩, ⟨publicKey, hpublic⟩⟩
    exact ⟨⟨privateKey, publicKey⟩, bind_ok.mpr ⟨_, hprivate, bind_ok.mpr ⟨_, hpublic, rfl⟩⟩⟩

theorem getCertificates_ok {stdout : Text} :
    (∃ pairs, getCertificates stdout = .ok pairs) ↔
      ∀ block ∈ extractedBlocks stdout, utf16Length (joined block) = 64 := by
  rw [getCertificates, exists_mapM_ok, extractedBlocks, List.forall_mem_flatMap]
  simp only [certificateAt_ok, List.forall_mem_cons, List.not_mem_nil, false_implies,
    implies_true, and_true]

/-- The printed pairs are read in their order, and a block of another length is an error. -/
theorem getCertificates_parses :
    (∀ (before : Text) (pairs : List PrintedPair), ¬ fromMarker <:+: before →
      getCertificates (before ++ pairs.flatMap PrintedPair.text) =
        .ok (pairs.map PrintedPair.pair)) ∧
    ∀ stdout, (∃ error, getCertificates stdout = .error error) ↔
      ∃ block ∈ extractedBlocks stdout, utf16Length (joined block) ≠ 64 := by
  constructor
  · intro before pairs hbefore
    have hlocations := locations_pairs pairs [] hbefore
    rw [List.nil_append, List.length_nil] at hlocations
    rw [getCertificates, mapM_ok, List.forall₂_map_right_iff]
    refine hlocations.imp ?_
    rintro index p ⟨rest, hrest⟩
    exact p.certificateAt hrest
  · intro stdout
    have hok := not_congr (@getCertificates_ok stdout)
    simp only [not_forall, exists_prop] at hok
    rw [← hok]
    cases getCertificates stdout with
    | ok pairs => simp
    | error error => simp

section Run

def ones : List UInt8 := List.replicate 32 1

/-- The block of 32 bytes `01`, wrapped after each. -/
def onesText : List UInt8 → Text
  | [] => []
  | [_] => "01".toList
  | _ :: next :: rest => "01".toList ++ ":\n".toList ++ onesText (next :: rest)

theorem separates_newline : Separates ":\n".toList :=
  ⟨[], ['\n'], rfl, blank_nil, fun c hc => by rw [List.mem_singleton.mp hc]; rfl⟩

theorem isByte_one : IsByte 1 "01".toList := ⟨'0', '1', rfl, .inl rfl, .inl rfl⟩

theorem printedBytes_replicate (n : ℕ) :
    PrintedBytes (List.replicate (n + 1) 1) (onesText (List.replicate (n + 1) 1)) := by
  induction n with
  | zero => exact .one isByte_one
  | succ n ih => exact .cons isByte_one separates_newline ih

def onesPair : PrintedPair where
  privateKey := ones
  publicKey := ones
  privateText := onesText ones
  publicText := onesText ones
  other := [':', 'p', 'u', 'b', ':']
  privateKey_length := rfl
  publicKey_length := rfl
  privateText_block := ⟨[], onesText ones, [], by simp, blank_nil, blank_nil,
    printedBytes_replicate 31⟩
  publicText_block := ⟨[], onesText ones, [], by simp, blank_nil, blank_nil,
    printedBytes_replicate 31⟩
  other_free := by decide

theorem getCertificates_parses_ones :
    getCertificates (['o', 'k'] ++ [onesPair, onesPair].flatMap PrintedPair.text) =
      .ok [onesPair.pair, onesPair.pair] :=
  getCertificates_parses.1 ['o', 'k'] [onesPair, onesPair] (by decide)

/-- A text with blocks of 64 letters that are no digits. -/
def lettersText : Text :=
  fromMarker ++ List.replicate 64 'z' ++ middleMarker ++ List.replicate 64 'z' ++ toMarker

set_option maxRecDepth 4000 in
/-- A block with no digit at all is taken for a key when it has 64 characters. -/
theorem getCertificates_letters :
    ¬ ∀ stdout : Text, (∃ block ∈ extractedBlocks stdout,
        ((joined block).filter fun c => c.isDigit || ('a' ≤ c ∧ c ≤ 'f') ||
          ('A' ≤ c ∧ c ≤ 'F')).length ≠ 64) →
      ∃ error, getCertificates stdout = .error error := by
  intro hclaim
  have hread : getCertificates lettersText =
      .ok [⟨List.replicate 64 'Z', List.replicate 64 'Z'⟩] := by rfl
  obtain ⟨error, herror⟩ := hclaim lettersText
    ⟨List.replicate 64 'z', by decide, by decide⟩
  rw [hread] at herror
  cases herror

end Run

end SymbolBootstrap.CertificateService
