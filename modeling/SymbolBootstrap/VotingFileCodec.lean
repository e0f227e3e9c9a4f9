import SymbolBootstrap.Library.Buffers
import SymbolBootstrap.Library.Doubles
import SymbolBootstrap.LinkService

/-!
The voting key files of VotingUtils.ts, byte by byte. Epochs and sizes are numbers of
double precision, so their sums and products are rounded as there. The conversions of
the SDK, the two signature libraries and the random keys are parameters.
-/
namespace SymbolBootstrap.VotingFileCodec

open Library Library.Buffers LinkService

structure Uint8Array where
  bytes : List UInt8
  bound : bytes.length < 2 ^ 53

namespace Uint8Array

def length (array : Uint8Array) : ℕ := array.bytes.length

/-- `new Uint8Array(length)`. -/
def zeros (length : ℤ) : Except String Uint8Array :=
  if h : 0 ≤ length ∧ length < 2 ^ 53 then
    .ok ⟨List.replicate length.toNat 0, by rw [List.length_replicate]; omega⟩
  else .error "Invalid typed array length"

def set (array : Uint8Array) (value : List UInt8) (index : ℕ) : Except String Uint8Array :=
  if h : index + value.length ≤ array.bytes.length then
    .ok ⟨overwrite array.bytes value index, by rw [length_overwrite h]; exact array.bound⟩
  else .error "offset is out of bounds"

def slice (array : Uint8Array) (start stop : ℕ) : List UInt8 :=
  (array.bytes.drop start).take (stop - start)

end Uint8Array

structure KeyPair where
  privateKey : List UInt8
  publicKey : List UInt8

structure CryptoImplementation where
  createKeyPairFromPrivateKey : List UInt8 → Except String KeyPair
  sign : KeyPair → List UInt8 → Except String (List UInt8)

/-- What the source uses of `@noble/ed25519`. -/
structure Noble where
  getPublicKey : List UInt8 → Except String (List UInt8)
  sign : List UInt8 → List UInt8 → Except String (List UInt8)

/-- What the source uses of `tweetnacl`. -/
structure Nacl where
  fromSeed : List UInt8 → Except String (List UInt8)
  detached : List UInt8 → List UInt8 → Except String (List UInt8)

def nobleImplementation (noble : Noble) : CryptoImplementation where
  createKeyPairFromPrivateKey privateKey := do
    let publicKey ← noble.getPublicKey privateKey
    return ⟨privateKey, publicKey⟩
  sign keyPair data := noble.sign data keyPair.privateKey

def tweetNaClImplementation (nacl : Nacl) : CryptoImplementation where
  createKeyPairFromPrivateKey privateKey := do
    let publicKey ← nacl.fromSeed privateKey
    return ⟨privateKey, publicKey⟩
  sign keyPair data := do
    let secretKey ← Uint8Array.zeros 64
    let secretKey ← secretKey.set keyPair.privateKey 0
    let secretKey ← secretKey.set keyPair.publicKey 32
    nacl.detached data secretKey.bytes

/-- What the source uses of the SDK's `Convert`. -/
structure Convert where
  hexToUint8 : String → Except String (List UInt8)
  uint8ToHex : List UInt8 → String
  numberToUint8Array : ℤ → ℕ → Except String (List UInt8)
  uintArray8ToNumber : List UInt8 → Except String ℕ

/-- An array has fewer than `2 ^ 32` entries. -/
abbrev PrivateKeys := {keys : List (List UInt8) // keys.length < 2 ^ 32}

def headerSize : ℕ := 64 + 16

def itemSize : ℕ := 32 + 64

def itemsOf (votingKeyStartEpoch votingKeyEndEpoch : ℕ) : ℤ :=
  Doubles.round (Doubles.round (votingKeyEndEpoch - votingKeyStartEpoch) + 1)

def totalSizeOf (items : ℤ) : ℤ := Doubles.round (headerSize + Doubles.round (items * itemSize))

section Create

variable (convert : Convert) (implementation : CryptoImplementation)
  (randomBytes : ℕ → List UInt8)

def insert (result : Uint8Array) (value : List UInt8) (index : ℕ) :
    Except String (Uint8Array × ℕ) := do
  let result ← result.set value index
  return (result, index + value.length)

/-- `unitTestPrivateKeys ? unitTestPrivateKeys[i] : Crypto.randomBytes(32)`, of which the
length is read next. -/
def privateKeyAt (unitTestPrivateKeys : Option PrivateKeys) (i : ℕ) :
    Except String (List UInt8) :=
  match unitTestPrivateKeys with
  | none => .ok (randomBytes i)
  | some keys =>
    match keys.val[i]? with
    | some privateKey => .ok privateKey
    | none => .error "Cannot read property 'length' of undefined"

/-- The part of the file before the keys. -/
def insertHeader (rootPrivateKey : KeyPair) (votingKeyStartEpoch votingKeyEndEpoch : ℕ)
    (result : Uint8Array) : Except String (Uint8Array × ℕ) := do
  let (result, index) ← insert result (← convert.numberToUint8Array votingKeyStartEpoch 8) 0
  let (result, index) ← insert result (← convert.numberToUint8Array votingKeyEndEpoch 8) index
  let (result, index) ← insert result (← convert.hexToUint8 "FFFFFFFFFFFFFFFF") index
  let (result, index) ← insert result (← convert.hexToUint8 "FFFFFFFFFFFFFFFF") index
  let (result, index) ← insert result rootPrivateKey.publicKey index
  let (result, index) ← insert result (← convert.numberToUint8Array votingKeyStartEpoch 8) index
  insert result (← convert.numberToUint8Array votingKeyEndEpoch 8) index

/-- The body of the loop over the keys. -/
def insertItem (rootPrivateKey : KeyPair) (votingKeyEndEpoch : ℕ)
    (unitTestPrivateKeys : Option PrivateKeys) (cursor : Uint8Array × ℕ) (i : ℕ) :
    Except String (Uint8Array × ℕ) := do
  let (result, index) := cursor
  let randomPrivateKey ← privateKeyAt randomBytes unitTestPrivateKeys i
  if randomPrivateKey.length ≠ 32 then
    throw ("Invalid private key size " ++ toString randomPrivateKey.length ++ "!")
  let randomKeyPar ← implementation.createKeyPairFromPrivateKey randomPrivateKey
  let (result, index) ← insert result randomPrivateKey index
  let identifier ← convert.numberToUint8Array (Doubles.round (votingKeyEndEpoch - i)) 8
  let signature ← implementation.sign rootPrivateKey (randomKeyPar.publicKey ++ identifier)
  insert result signature index

def createVotingFile (secret : String) (votingKeyStartEpoch votingKeyEndEpoch : ℕ)
    (unitTestPrivateKeys : Option PrivateKeys) : Except String Uint8Array := do
  let items := itemsOf votingKeyStartEpoch votingKeyEndEpoch
  let totalSize := totalSizeOf items
  let rootPrivateKey ← implementation.createKeyPairFromPrivateKey (← convert.hexToUint8 secret)
  let result ← Uint8Array.zeros totalSize
  let cursor ← insertHeader convert rootPrivateKey votingKeyStartEpoch votingKeyEndEpoch result
  let (result, _) ← (List.range items.toNat).foldlM
    (insertItem convert implementation randomBytes rootPrivateKey votingKeyEndEpoch
      unitTestPrivateKeys) cursor
  return result

end Create

/-- `numberText` is the text of a number, which for a large one is not all of its digits. -/
def readVotingFile (convert : Convert) (numberText : ℤ → String) (file : Uint8Array) :
    Except String VotingKeyAccount := do
  let votingKeyStartEpoch ← convert.uintArray8ToNumber (file.slice 0 8)
  let votingKeyEndEpoch ← convert.uintArray8ToNumber (file.slice 8 16)
  let votingPublicKey := convert.uint8ToHex (file.slice 32 64)
  let totalSize := totalSizeOf (itemsOf votingKeyStartEpoch votingKeyEndEpoch)
  if (file.length : ℤ) ≠ totalSize then
    throw ("Unexpected voting key file. Expected " ++ numberText totalSize ++ " but got " ++
      numberText file.length)
  return ⟨votingKeyStartEpoch, votingKeyEndEpoch, votingPublicKey⟩

end SymbolBootstrap.VotingFileCodec
