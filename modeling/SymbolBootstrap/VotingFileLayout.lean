import SymbolBootstrap.VotingFileSizes

/-!
The layout of the voting key files that are created. The header has 80 bytes, the item of
an epoch is 96 bytes long and the items stand in the reverse order of their epochs. What
is created is read back as its epochs and its root public key, while the library decodes
the numbers that it encodes: symbol-sdk shifts 32-bit integers, and so does up to 2^32.
-/
namespace SymbolBootstrap.VotingFileLayout

open Library Library.Buffers Library.Throwing LinkService VotingFileCodec VotingFileSizes

/-- Numbers that are exact are eight little-endian bytes, and those below the limit are decoded
from them. -/
structure ConvertLaws (convert : Convert) (limit : ℕ) : Prop where
  hex : convert.hexToUint8 "FFFFFFFFFFFFFFFF" = .ok (List.replicate 8 255)
  encode : ∀ n : ℕ, n < 2 ^ 53 →
    convert.numberToUint8Array n 8 = .ok (LittleEndian.toBytes 8 n)
  decode : ∀ n : ℕ, n < limit →
    convert.uintArray8ToNumber (LittleEndian.toBytes 8 n) = .ok n

/-- Keys of 32 bytes have public keys of 32 bytes, and their signatures have 64. -/
structure CryptoLaws (implementation : CryptoImplementation) : Prop where
  keyPair : ∀ privateKey : List UInt8, privateKey.length = 32 → ∃ publicKey : List UInt8,
    implementation.createKeyPairFromPrivateKey privateKey = .ok ⟨privateKey, publicKey⟩ ∧
      publicKey.length = 32
  signature : ∀ (keyPair : KeyPair) (data : List UInt8), keyPair.privateKey.length = 32 →
    keyPair.publicKey.length = 32 → ∃ signature : List UInt8,
      implementation.sign keyPair data = .ok signature ∧ signature.length = 64

theorem nobleImplementation_laws {noble : Noble}
    (hkey : ∀ privateKey : List UInt8, privateKey.length = 32 → ∃ publicKey : List UInt8,
      noble.getPublicKey privateKey = .ok publicKey ∧ publicKey.length = 32)
    (hsign : ∀ data privateKey : List UInt8, privateKey.length = 32 → ∃ signature : List UInt8,
      noble.sign data privateKey = .ok signature ∧ signature.length = 64) :
    CryptoLaws (nobleImplementation noble) := by
  constructor
  · intro privateKey hlength
    obtain ⟨publicKey, hpublic, hsize⟩ := hkey privateKey hlength
    refine ⟨publicKey, ?_, hsize⟩
    simp only [nobleImplementation, hpublic]
    rfl
  · intro keyPair data hprivate _
    exact hsign data keyPair.privateKey hprivate

theorem set_ok (array : Uint8Array) (value : List UInt8) (index : ℕ)
    (h : index + value.length ≤ array.bytes.length) :
    ∃ after, array.set value index = .ok after ∧
      after.bytes = overwrite array.bytes value index := by
  refine ⟨⟨overwrite array.bytes value index, ?_⟩, ?_, rfl⟩
  · rw [length_overwrite h]
    exact array.bound
  · rw [Uint8Array.set, dif_pos h]

theorem zeros_ok (size : ℕ) (h : size < 2 ^ 53) :
    ∃ array, Uint8Array.zeros size = .ok array ∧ array.bytes = List.replicate size 0 := by
  have hbound : (0 : ℤ) ≤ size ∧ (size : ℤ) < 2 ^ 53 := ⟨by omega, by omega⟩
  refine ⟨⟨List.replicate size 0, by rw [List.length_replicate]; exact h⟩, ?_, rfl⟩
  rw [Uint8Array.zeros, dif_pos hbound]
  rfl

theorem tweetNaClImplementation_laws {nacl : Nacl}
    (hkey : ∀ seed : List UInt8, seed.length = 32 → ∃ publicKey : List UInt8,
      nacl.fromSeed seed = .ok publicKey ∧ publicKey.length = 32)
    (hsign : ∀ data secretKey : List UInt8, secretKey.length = 64 → ∃ signature : List UInt8,
      nacl.detached data secretKey = .ok signature ∧ signature.length = 64) :
    CryptoLaws (tweetNaClImplementation nacl) := by
  constructor
  · intro privateKey hlength
    obtain ⟨publicKey, hpublic, hsize⟩ := hkey privateKey hlength
    refine ⟨publicKey, ?_, hsize⟩
    simp only [tweetNaClImplementation, hpublic]
    rfl
  · intro keyPair data hprivate hpublic
    obtain ⟨empty, hempty, hzeros⟩ := zeros_ok 64 (by decide)
    have hlength : empty.bytes.length = 64 := by rw [hzeros, List.length_replicate]
    obtain ⟨half, hhalf, hbytes⟩ := set_ok empty keyPair.privateKey 0 (by omega)
    have hlength' : half.bytes.length = 64 := by rw [hbytes, length_overwrite (by omega), hlength]
    obtain ⟨full, hfull, hbytes'⟩ := set_ok half keyPair.publicKey 32 (by omega)
    have hsecret : full.bytes.length = 64 := by rw [hbytes', length_overwrite (by omega), hlength']
    obtain ⟨signature, hsignature, hsize⟩ := hsign data full.bytes hsecret
    refine ⟨signature, ?_, hsize⟩
    have hempty' : Uint8Array.zeros 64 = .ok empty := hempty
    simp only [tweetNaClImplementation, hempty', bind, Except.bind, hhalf, hfull]
    exact hsignature

section Write

variable {size : ℕ} {written : List UInt8} {cursor : Uint8Array × ℕ}

/-- The file is filled up to the index, with what was written. -/
structure Wrote (size : ℕ) (written : List UInt8) (cursor : Uint8Array × ℕ) : Prop where
  index : cursor.2 = written.length
  filled : Filled 0 size written cursor.1.bytes

theorem insert_wrote (value : List UInt8) (h : Wrote size written cursor)
    (hfits : written.length + value.length ≤ size) :
    ∃ after, VotingFileCodec.insert cursor.1 value cursor.2 = .ok after ∧
      Wrote size (written ++ value) after := by
  obtain ⟨result, index⟩ := cursor
  obtain ⟨rfl, hfilled⟩ := h
  have hroom : written.length + value.length ≤ result.bytes.length := by
    rw [hfilled.length_eq]
    exact hfits
  obtain ⟨after, hafter, hbytes⟩ := set_ok result value written.length hroom
  refine ⟨(after, written.length + value.length), ?_, ?_, ?_⟩
  · rw [VotingFileCodec.insert, hafter]
    rfl
  · rw [List.length_append]
  · rw [hbytes]
    exact hfilled.overwrite hfits

end Write

section Create

variable {convert : Convert} {limit : ℕ} {implementation : CryptoImplementation}
  {randomBytes : ℕ → List UInt8} {size : ℕ} {root : KeyPair} {start stop : ℕ}

def headerBytes (publicKey : List UInt8) (start stop : ℕ) : List UInt8 :=
  LittleEndian.toBytes 8 start ++ LittleEndian.toBytes 8 stop ++ List.replicate 8 255 ++
    List.replicate 8 255 ++ publicKey ++ LittleEndian.toBytes 8 start ++
    LittleEndian.toBytes 8 stop

theorem length_headerBytes {publicKey : List UInt8} (start stop : ℕ) (h : publicKey.length = 32) :
    (headerBytes publicKey start stop).length = 80 := by
  simp only [headerBytes, List.length_append, LittleEndian.length_toBytes, List.length_replicate, h]

/-- The header fills the first 80 bytes. -/
theorem insertHeader_wrote (hconvert : ConvertLaws convert limit) (hstart : start < 2 ^ 53)
    (hstop : stop < 2 ^ 53) (hpublic : root.publicKey.length = 32) (hsize : 80 ≤ size)
    {result : Uint8Array} (h : Wrote size [] (result, 0)) :
    ∃ cursor, insertHeader convert root start stop result = .ok cursor ∧
      Wrote size (headerBytes root.publicKey start stop) cursor := by
  have hlength := length_headerBytes start stop hpublic
  simp only [headerBytes, List.length_append] at hlength
  obtain ⟨c₁, h₁, w₁⟩ := insert_wrote (LittleEndian.toBytes 8 start) h
    (by simp only [List.length_nil]; omega)
  rw [List.nil_append] at w₁
  obtain ⟨c₂, h₂, w₂⟩ := insert_wrote (LittleEndian.toBytes 8 stop) w₁ (by omega)
  obtain ⟨c₃, h₃, w₃⟩ := insert_wrote (List.replicate 8 255) w₂
    (by simp only [List.length_append]; omega)
  obtain ⟨c₄, h₄, w₄⟩ := insert_wrote (List.replicate 8 255) w₃
    (by simp only [List.length_append]; omega)
  obtain ⟨c₅, h₅, w₅⟩ := insert_wrote root.publicKey w₄
    (by simp only [List.length_append]; omega)
  obtain ⟨c₆, h₆, w₆⟩ := insert_wrote (LittleEndian.toBytes 8 start) w₅
    (by simp only [List.length_append]; omega)
  obtain ⟨c₇, h₇, w₇⟩ := insert_wrote (LittleEndian.toBytes 8 stop) w₆
    (by simp only [List.length_append]; omega)
  refine ⟨c₇, ?_, w₇⟩
  simp only [insertHeader, hconvert.encode start hstart, hconvert.encode stop hstop, hconvert.hex,
    bind, Except.bind, h₁, h₂, h₃, h₄, h₅, h₆, h₇]

/-- The item of an epoch: the bound private key and the root key's signature of its public
key and the epoch. -/
def IsItem (implementation : CryptoImplementation) (root : KeyPair) (privateKey : List UInt8)
    (epoch : ℕ) (item : List UInt8) : Prop :=
  ∃ keyPair signature, implementation.createKeyPairFromPrivateKey privateKey = .ok keyPair ∧
    implementation.sign root (keyPair.publicKey ++ LittleEndian.toBytes 8 epoch) = .ok signature ∧
    item = privateKey ++ signature

/-- The items of a number of private keys, from the last epoch down. -/
structure Items (implementation : CryptoImplementation) (root : KeyPair)
    (keys : List (List UInt8)) (stop : ℕ) (count : ℕ) (items : List (List UInt8)) : Prop where
  count : items.length = count
  width : ∀ item ∈ items, item.length = 96
  item : ∀ (i : ℕ) (privateKey item : List UInt8), keys[i]? = some privateKey →
    items[i]? = some item → IsItem implementation root privateKey (stop - i) item

theorem items_nil (implementation : CryptoImplementation) (root : KeyPair)
    (keys : List (List UInt8)) (stop : ℕ) : Items implementation root keys stop 0 [] := by
  refine ⟨rfl, fun _ hmem => absurd hmem List.not_mem_nil, ?_⟩
  intro i privateKey item _ hitem
  cases hitem

theorem Items.append {keys : List (List UInt8)} {i : ℕ} {items : List (List UInt8)}
    (h : Items implementation root keys stop i items) {privateKey item : List UInt8}
    (hkey : keys[i]? = some privateKey)
    (hitem : IsItem implementation root privateKey (stop - i) item) (hwidth : item.length = 96) :
    Items implementation root keys stop (i + 1) (items ++ [item]) := by
  refine ⟨by rw [List.length_append, h.count, List.length_singleton], ?_, ?_⟩
  · intro other hother
    rcases List.mem_append.mp hother with hin | hin
    · exact h.width other hin
    · rw [List.mem_singleton.mp hin]
      exact hwidth
  · intro j otherKey other hotherKey hother
    rcases lt_trichotomy j items.length with hj | rfl | hj
    · rw [List.getElem?_append_left hj] at hother
      exact h.item j otherKey other hotherKey hother
    · rw [List.getElem?_concat_length] at hother
      rw [h.count, hkey] at hotherKey
      cases hother
      cases hotherKey
      rw [h.count]
      exact hitem
    · rw [List.getElem?_eq_none (by rw [List.length_append, List.length_singleton]; omega)]
        at hother
      cases hother

/-- One turn of the loop appends the item of the next private key. -/
theorem insertItem_wrote (hconvert : ConvertLaws convert limit)
    (hcrypto : CryptoLaws implementation) (hstop : stop < 2 ^ 53)
    (hprivate : root.privateKey.length = 32) (hpublic : root.publicKey.length = 32)
    (keys : PrivateKeys) {i : ℕ} {privateKey : List UInt8}
    (hkey : keys.val[i]? = some privateKey) (hlength : privateKey.length = 32) (hi : i ≤ stop)
    {written : List UInt8} {cursor : Uint8Array × ℕ} (h : Wrote size written cursor)
    (hfits : written.length + 96 ≤ size) :
    ∃ item after,
      insertItem convert implementation randomBytes root stop (some keys) cursor i = .ok after ∧
      IsItem implementation root privateKey (stop - i) item ∧ item.length = 96 ∧
      Wrote size (written ++ item) after := by
  obtain ⟨publicKey, hpair, _⟩ := hcrypto.keyPair privateKey hlength
  obtain ⟨signature, hsign, hsignature⟩ := hcrypto.signature root
    (publicKey ++ LittleEndian.toBytes 8 (stop - i)) hprivate hpublic
  obtain ⟨half, hhalf, whalf⟩ := insert_wrote privateKey h (by omega)
  obtain ⟨after, hafter, wafter⟩ := insert_wrote signature whalf
    (by rw [List.length_append]; omega)
  have hepoch : Doubles.round ((stop : ℤ) - i) = ((stop - i : ℕ) : ℤ) := by
    rw [Doubles.round_eq_self (by omega)]
    omega
  refine ⟨privateKey ++ signature, after, ?_, ⟨_, signature, hpair, hsign, rfl⟩, ?_, ?_⟩
  · simp only [insertItem, privateKeyAt, hkey, hlength, ne_eq, not_true_eq_false, ↓reduceIte, hpair,
      hepoch, hconvert.encode _ (show stop - i < 2 ^ 53 by omega), hsign, bind, Except.bind, hhalf,
      hafter]
  · rw [List.length_append, hlength, hsignature]
  · rw [← List.append_assoc]
    exact wafter

/-- The loop writes the items of all private keys after the header. -/
theorem insertItems_wrote (randomBytes : ℕ → List UInt8) (hconvert : ConvertLaws convert limit)
    (hcrypto : CryptoLaws implementation) (hstop : stop < 2 ^ 53)
    (hprivate : root.privateKey.length = 32)
    (hpublic : root.publicKey.length = 32) {keys : PrivateKeys}
    (hkeys : ∀ privateKey ∈ keys.val, privateKey.length = 32) (hepochs : keys.val.length ≤ stop + 1)
    {written : List UInt8} {cursor : Uint8Array × ℕ} (h : Wrote size written cursor)
    (hsize : written.length + 96 * keys.val.length = size) :
    ∃ after, (List.range keys.val.length).foldlM
        (insertItem convert implementation randomBytes root stop (some keys)) cursor = .ok after ∧
      ∃ items, Items implementation root keys.val stop keys.val.length items ∧
        Wrote size (written ++ items.flatten) after := by
  refine foldlM_range_total (P := fun i cursor => ∃ items,
    Items implementation root keys.val stop i items ∧ Wrote size (written ++ items.flatten) cursor)
    ?_ ?_
  · refine ⟨[], items_nil implementation root keys.val stop, ?_⟩
    rw [List.flatten_nil, List.append_nil]
    exact h
  · rintro i hi before ⟨items, hitems, hwrote⟩
    have hkey : keys.val[i]? = some keys.val[i] := List.getElem?_eq_getElem hi
    have hlength := hkeys _ (List.getElem_mem hi)
    have hflat := length_flatten hitems.width
    rw [hitems.count] at hflat
    obtain ⟨item, after, hafter, hitem, hwidth, hnext⟩ := insertItem_wrote (i := i) hconvert
      hcrypto hstop hprivate hpublic keys hkey hlength (by omega) hwrote
      (by rw [List.length_append, hflat]; omega)
    refine ⟨after, hafter, items ++ [item], hitems.append hkey hitem hwidth, ?_⟩
    rw [List.flatten_append, List.flatten_singleton, ← List.append_assoc]
    exact hnext

end Create

/-- A file that begins with a header has its fields where reading looks for them. -/
theorem readVotingFile_header {convert : Convert} {limit : ℕ}
    (hconvert : ConvertLaws convert limit) (numberText : ℤ → String) {start stop : ℕ}
    (hstart : start < limit) (hstop : stop < limit) {publicKey rest : List UInt8}
    (hpublic : publicKey.length = 32) {file : Uint8Array}
    (hbytes : file.bytes = headerBytes publicKey start stop ++ rest)
    (hsize : 80 + 96 * ((stop : ℤ) - start + 1) = file.length) :
    readVotingFile convert numberText file =
      .ok ⟨start, stop, convert.uint8ToHex publicKey⟩ := by
  simp only [headerBytes, List.append_assoc] at hbytes
  have hfirst : file.slice 0 8 = LittleEndian.toBytes 8 start := by
    rw [Uint8Array.slice, hbytes]
    exact take_drop_field [] _ _ rfl (LittleEndian.length_toBytes 8 start)
  have hlast : file.slice 8 16 = LittleEndian.toBytes 8 stop := by
    rw [Uint8Array.slice, hbytes]
    exact take_drop_field _ _ _ (LittleEndian.length_toBytes 8 start)
      (LittleEndian.length_toBytes 8 stop)
  have hkey : file.slice 32 64 = publicKey := by
    have hsplit : file.bytes = (LittleEndian.toBytes 8 start ++ (LittleEndian.toBytes 8 stop ++
        (List.replicate 8 255 ++ List.replicate 8 255))) ++ (publicKey ++
          (LittleEndian.toBytes 8 start ++ (LittleEndian.toBytes 8 stop ++ rest))) := by
      simp only [hbytes, List.append_assoc]
    rw [Uint8Array.slice, hsplit]
    refine take_drop_field _ _ _ ?_ hpublic
    simp only [List.length_append, LittleEndian.length_toBytes, List.length_replicate]
  rw [readVotingFile_ok]
  refine ⟨?_, by rw [hkey], hsize⟩
  rw [headerEpochs, hfirst, hlast, hconvert.decode start hstart, hconvert.decode stop hstop]
  rfl

/-- A file that is created for a range of epochs is the header and an item for each epoch,
the last one first, and is read as that range where the last epoch is below the limit up to
which numbers are decoded. -/
theorem createVotingFile_layout {convert : Convert} {limit : ℕ}
    (hconvert : ConvertLaws convert limit) {implementation : CryptoImplementation}
    (hcrypto : CryptoLaws implementation)
    (randomBytes : ℕ → List UInt8) (numberText : ℤ → String) {secret : String}
    {rootPrivateKey : List UInt8} (hsecret : convert.hexToUint8 secret = .ok rootPrivateKey)
    (hroot : rootPrivateKey.length = 32) {start stop : ℕ} (hrange : start ≤ stop)
    (hstop : stop < 2 ^ 53) {keys : PrivateKeys} (hcount : keys.val.length = stop - start + 1)
    (hkeys : ∀ privateKey ∈ keys.val, privateKey.length = 32) :
    ∃ root file, implementation.createKeyPairFromPrivateKey rootPrivateKey = .ok root ∧
      createVotingFile convert implementation randomBytes secret start stop (some keys) =
        .ok file ∧
      file.length = 80 + 96 * (stop - start + 1) ∧
      (stop < limit → readVotingFile convert numberText file =
        .ok ⟨start, stop, convert.uint8ToHex root.publicKey⟩) ∧
      ∀ epoch, start ≤ epoch → epoch ≤ stop → ∃ privateKey,
        keys.val[stop - epoch]? = some privateKey ∧
        IsItem implementation root privateKey epoch
          ((file.bytes.drop (80 + 96 * (stop - epoch))).take 96) := by
  have hbound := keys.property
  obtain ⟨root, hpair, hprivate, hpublic⟩ : ∃ root : KeyPair,
      implementation.createKeyPairFromPrivateKey rootPrivateKey = .ok root ∧
      root.privateKey.length = 32 ∧ root.publicKey.length = 32 := by
    obtain ⟨publicKey, hpair, hpublic⟩ := hcrypto.keyPair rootPrivateKey hroot
    exact ⟨⟨rootPrivateKey, publicKey⟩, hpair, hroot, hpublic⟩
  have hstart : start < 2 ^ 53 := by omega
  have hitems : itemsOf start stop = (keys.val.length : ℤ) := by
    rw [itemsOf, Doubles.round_eq_self (n := (stop : ℤ) - start) (by omega),
      Doubles.round_eq_self (by omega)]
    omega
  have hsize : totalSizeOf keys.val.length = ((80 + 96 * keys.val.length : ℕ) : ℤ) := by
    rw [← hitems, totalSizeOf_itemsOf_eq_iff (by omega)]
    omega
  obtain ⟨empty, hempty, hzeros⟩ := zeros_ok (80 + 96 * keys.val.length) (by omega)
  have hblank : Wrote (80 + 96 * keys.val.length) [] (empty, 0) :=
    ⟨rfl, by rw [hzeros]; exact filled_nil⟩
  obtain ⟨cursor, hheader, hwrote⟩ :=
    insertHeader_wrote hconvert hstart hstop hpublic (by omega) hblank
  have hlength := length_headerBytes start stop hpublic
  obtain ⟨⟨file, index⟩, hloop, items, hall, hfile⟩ := insertItems_wrote randomBytes
    hconvert hcrypto hstop hprivate hpublic hkeys (by omega) hwrote (by rw [hlength])
  have hflat := length_flatten hall.width
  have hbytes := hfile.filled.eq_of_full (by rw [List.length_append, hlength, hflat, hall.count])
  have hfull : file.length = 80 + 96 * (stop - start + 1) := by
    rw [← hcount]
    exact hfile.filled.length_eq
  refine ⟨root, file, hpair, ?_, hfull, ?_, ?_⟩
  · simp only [createVotingFile, hsecret, hpair, hitems, hsize, hempty, hheader, bind, Except.bind,
      Int.toNat_natCast, hloop, pure, Except.pure]
  · intro hlimit
    exact readVotingFile_header hconvert numberText (hrange.trans_lt hlimit) hlimit hpublic hbytes
      (by rw [hfull]; omega)
  · intro epoch hfirst hlast
    have hi : stop - epoch < keys.val.length := by omega
    have hi' : stop - epoch < items.length := by rw [hall.count]; exact hi
    have hkey := List.getElem?_eq_getElem hi
    have hitem := List.getElem?_eq_getElem hi'
    have hblock := take_drop_flatten hall.width hitem
    refine ⟨_, hkey, ?_⟩
    have hepoch : stop - (stop - epoch) = epoch := by omega
    have hrecord := hall.item _ _ _ hkey hitem
    rw [hepoch, ← hblock] at hrecord
    rw [hbytes, List.drop_append, hlength, List.drop_eq_nil_of_le (by omega), List.nil_append,
      Nat.add_sub_cancel_left]
    exact hrecord

def bytesOfHex (text : String) : List UInt8 := (hexBytes text.toList).getD []

def rootSecret : String := "EFE3F0EF0AB368B8D7AC194D52A8CCFA2D5050B80B9C76E4D2F4D4BF2CD461C1"

def rootPublicKey : List UInt8 :=
  bytesOfHex "7834C8AAEFB09402DA32B22768D7CF9DCAC78A7774392E4452F07DDF776E088D"

def boundPrivateKey : List UInt8 :=
  bytesOfHex "D7242EC770FD8F80459616A642781112680206005A03623ED3112F1F1E4DFD98"

def boundPublicKey : List UInt8 :=
  bytesOfHex "80BBC26EACC0ABB5328D68FC78EE7183905158688AF03A2C8829B861FA39D0A0"

def boundSignature : List UInt8 :=
  bytesOfHex "2E67C1D64CE0DABC2C69D9E477DB3DCDE26593845FDDDCEABD45DF5C4D4DF708" ++
    bytesOfHex "D4349618BB55E673AB8CE11BD8A253BC997A1F54A7D8BA16A4D18D37802D4A0A"

/-- The keys and the signature of `private_key_tree3.dat`, which has one epoch. -/
def treeImplementation : CryptoImplementation where
  createKeyPairFromPrivateKey privateKey :=
    .ok ⟨privateKey,
      if privateKey = bytesOfHex rootSecret then rootPublicKey
      else if privateKey = boundPrivateKey then boundPublicKey
      else List.replicate 32 0⟩
  sign keyPair data :=
    .ok (if keyPair.privateKey = bytesOfHex rootSecret ∧
        data = boundPublicKey ++ LittleEndian.toBytes 8 10 then boundSignature
      else List.replicate 64 0)

theorem treeImplementation_laws : CryptoLaws treeImplementation := by
  constructor
  · intro privateKey _
    refine ⟨_, rfl, ?_⟩
    split_ifs
    · decide +kernel
    · decide +kernel
    · exact List.length_replicate
  · intro keyPair data _ _
    refine ⟨_, rfl, ?_⟩
    split_ifs
    · decide +kernel
    · exact List.length_replicate

/-- Texts and numbers as the library encodes them. It decodes with shifts of 32-bit integers,
so that the bytes from the fifth on are shifted as the first four are. -/
def shiftConvert : Convert where
  hexToUint8 := littleEndianConvert.hexToUint8
  uint8ToHex := littleEndianConvert.uint8ToHex
  numberToUint8Array := littleEndianConvert.numberToUint8Array
  uintArray8ToNumber bytes :=
    .ok (LittleEndian.ofBytes (bytes.take 4) ||| LittleEndian.ofBytes (bytes.drop 4))

/-- Numbers of 32 bits are decoded as they were encoded. -/
theorem shiftConvert_laws : ConvertLaws shiftConvert (2 ^ 32) := by
  refine ⟨by decide +kernel, fun n _ => rfl, fun n hn => ?_⟩
  have hhigh : n / 256 ^ 4 = 0 := Nat.div_eq_of_lt hn
  have hsplit : LittleEndian.toBytes 8 n =
      LittleEndian.toBytes 4 n ++ LittleEndian.toBytes 4 (n / 256 ^ 4) :=
    LittleEndian.toBytes_add 4 4 n
  have hlow : LittleEndian.ofBytes (LittleEndian.toBytes 4 n) = n :=
    LittleEndian.ofBytes_toBytes hn
  rw [hhigh] at hsplit
  simp only [shiftConvert, hsplit, List.take_left' (LittleEndian.length_toBytes 4 n),
    List.drop_left' (LittleEndian.length_toBytes 4 n), hlow]
  exact congrArg Except.ok (Nat.or_zero n)

theorem createVotingFile_layout_tree3 :
    ∃ root file,
      treeImplementation.createKeyPairFromPrivateKey (bytesOfHex rootSecret) = .ok root ∧
      createVotingFile shiftConvert treeImplementation (fun _ => []) rootSecret 10 10
        (some ⟨[boundPrivateKey], by decide⟩) = .ok file ∧
      file.length = 80 + 96 * (10 - 10 + 1) ∧
      (10 < 2 ^ 32 → readVotingFile shiftConvert toString file =
        .ok ⟨10, 10, shiftConvert.uint8ToHex root.publicKey⟩) ∧
      ∀ epoch, 10 ≤ epoch → epoch ≤ 10 → ∃ privateKey,
        [boundPrivateKey][10 - epoch]? = some privateKey ∧
        IsItem treeImplementation root privateKey epoch
          ((file.bytes.drop (80 + 96 * (10 - epoch))).take 96) :=
  createVotingFile_layout shiftConvert_laws treeImplementation_laws (fun _ => []) toString
    (by decide +kernel) (by decide +kernel) le_rfl (by decide) rfl
    (fun _ hmem => List.mem_singleton.mp hmem ▸ by decide +kernel)

/-- What is decoded from 8 bytes has 32 bits. -/
theorem shiftConvert_decoded_lt {bytes : List UInt8} (hlength : bytes.length ≤ 8) {n : ℕ}
    (hdecoded : shiftConvert.uintArray8ToNumber bytes = .ok n) : n < 2 ^ 32 := by
  obtain rfl : LittleEndian.ofBytes (bytes.take 4) ||| LittleEndian.ofBytes (bytes.drop 4) = n :=
    Except.ok.inj hdecoded
  have hlow : LittleEndian.ofBytes (bytes.take 4) < 256 ^ 4 :=
    LittleEndian.ofBytes_lt (by rw [List.length_take]; omega)
  have hhigh : LittleEndian.ofBytes (bytes.drop 4) < 256 ^ 4 :=
    LittleEndian.ofBytes_lt (by rw [List.length_drop]; omega)
  exact Nat.or_lt_two_pow hlow hhigh

/-- No file for epoch 2^32 is read back as it. -/
theorem read_back_lost : ¬ ∀ (start stop : ℕ) (keys : PrivateKeys), start ≤ stop →
    stop < 2 ^ 53 → keys.val.length = stop - start + 1 →
    (∀ privateKey ∈ keys.val, privateKey.length = 32) →
    ∃ root file, treeImplementation.createKeyPairFromPrivateKey (bytesOfHex rootSecret) =
        .ok root ∧
      createVotingFile shiftConvert treeImplementation (fun _ => []) rootSecret start stop
        (some keys) = .ok file ∧
      readVotingFile shiftConvert toString file =
        .ok ⟨start, stop, shiftConvert.uint8ToHex root.publicKey⟩ := by
  intro hclaim
  obtain ⟨root, file, -, -, hread⟩ := hclaim (2 ^ 32) (2 ^ 32) ⟨[boundPrivateKey], by decide⟩
    le_rfl (by decide) rfl (fun _ hmem => List.mem_singleton.mp hmem ▸ by decide +kernel)
  obtain ⟨hepochs, -, -⟩ := (readVotingFile_ok shiftConvert toString file).mp hread
  obtain ⟨first, hfirst, hepochs⟩ := bind_ok.mp hepochs
  obtain ⟨last, -, hpair⟩ := bind_ok.mp hepochs
  have hlength : (file.slice 0 8).length ≤ 8 := by
    rw [Uint8Array.slice, List.length_take]
    exact Nat.min_le_left _ _
  have hlt := shiftConvert_decoded_lt hlength hfirst
  rw [(Prod.mk.inj (Except.ok.inj hpair)).1] at hlt
  exact lt_irrefl _ hlt

end SymbolBootstrap.VotingFileLayout
