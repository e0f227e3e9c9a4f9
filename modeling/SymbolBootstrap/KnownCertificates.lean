import SymbolBootstrap.CertificateScript

/-!
An openssl that knows two key pairs. Its files hold keys as they are, without an encoding; what
it prints of a key has the lines of the real one.
-/
namespace SymbolBootstrap.KnownCertificates

open Library.Changes Library.Records Library.Searching Library.Texts
open SymbolBootstrap.CertificateService SymbolBootstrap.CertificateScript

def caPrivateKey : Bytes :=
  [0x7b, 0x63, 0xf8, 0x6a, 0xf5, 0xe3, 0x36, 0x17, 0xc3, 0x49, 0x83, 0x20, 0x12, 0xf4, 0x2f,
    0xac, 0x01, 0x02, 0x00, 0x1a, 0x70, 0x5e, 0x48, 0x42, 0xd0, 0xf6, 0x15, 0xb1, 0xba, 0x1c,
    0x98, 0xa2]

def caPublicKey : Bytes :=
  [0xd2, 0x2d, 0xbd, 0x05, 0x3e, 0x69, 0x13, 0x00, 0x5d, 0xe2, 0xe5, 0x9a, 0x39, 0x07, 0xc8,
    0x8c, 0xd6, 0xab, 0x08, 0x1b, 0x8b, 0xc1, 0xac, 0x26, 0xee, 0x24, 0xbd, 0xeb, 0x09, 0xb8,
    0xbd, 0xa2]

def nodePrivateKey : Bytes :=
  [0x6e, 0xd4, 0xc5, 0x90, 0x11, 0x02, 0x85, 0x57, 0x2f, 0xb6, 0x0f, 0x1f, 0x2a, 0xdf, 0x50,
    0xf2, 0xdf, 0x96, 0x99, 0x1b, 0x0a, 0x72, 0xe8, 0x62, 0x41, 0xb2, 0xd4, 0x4b, 0x4c, 0xe7,
    0xe6, 0x96]

def nodePublicKey : Bytes :=
  [0x5f, 0x4f, 0x87, 0x60, 0xd6, 0x75, 0xf6, 0x83, 0x6d, 0x4c, 0x07, 0x57, 0x6f, 0x88, 0xb1,
    0x79, 0xbf, 0xe4, 0x47, 0x1e, 0xdf, 0xba, 0x4e, 0xcd, 0x23, 0x99, 0xc8, 0xf1, 0xef, 0x02,
    0xee, 0x71]

def knownReading : Reading where
  privateKey content := if ans1.isPrefixOf content then some (content.drop 16) else none
  publicKey key := if key = caPrivateKey then caPublicKey else nodePublicKey
  certificate content :=
    if content.length = 64 then some (content.take 32, content.drop 32) else none
  requested content := if content.length = 32 then some content else none
  plain _ := true

def hexDigit (c : Char) : ℕ :=
  if c.isDigit then c.toNat - '0'.toNat else c.toNat - 'a'.toNat + 10

/-- Digits in lower case, read in pairs. -/
def readHex : Text → Except String Bytes
  | [] => .ok []
  | [_] => .error "Input has an odd number of characters"
  | high :: low :: rest => do
      let bytes ← readHex rest
      return UInt8.ofNat (16 * hexDigit high + hexDigit low) :: bytes

def digits (b : UInt8) : Text := [(b.toNat / 16).digitChar, (b.toNat % 16).digitChar]

/-- Bytes in lines of fifteen, from a column on. -/
def printBytes : ℕ → Bytes → Text
  | _, [] => []
  | _, [b] => digits b
  | column, b :: next :: rest =>
      digits b ++ (if column = 14 then ":\n    ".toList else [':']) ++
        printBytes ((column + 1) % 15) (next :: rest)

def block (key : Bytes) : Text := "\n    ".toList ++ printBytes 0 key ++ ['\n']

def printKey (key : Bytes) : Text :=
  "ED25519 Private-Key:\n".toList ++ (fromMarker ++ (block key ++
    (middleMarker ++ block (knownReading.publicKey key))))

def knownOpenSsl (folder : Folder) : OpenSsl → Effect
  | .pkey input output =>
    match content folder input with
    | some bytes => ([.write output (.file bytes)], .ok [])
    | none => ([], .error "Can't open input file")
  | .pkeyText file =>
    match privateKeyOf knownReading folder file with
    | some key => ([], if key.length = 32 then .ok (printKey key) else .error "unable to load key")
    | none => ([], .error "unable to load key")
  | .pkeyPubout _ output => ([.write output (.file [])], .ok [])
  | .selfSign _ key _ output =>
    match privateKeyOf knownReading folder key with
    | some privateKey =>
        ([.write output (.file (knownReading.publicKey privateKey ++
          knownReading.publicKey privateKey))], .ok [])
    | none => ([], .error "unable to load key")
  | .x509Text file =>
    match content folder file with
    | some _ => ([], .ok (toMarker ++ ":\n".toList))
    | none => ([], .error "unable to load certificate")
  | .request _ key output =>
    match privateKeyOf knownReading folder key with
    | some privateKey => ([.write output (.file (knownReading.publicKey privateKey))], .ok [])
    | none => ([], .error "unable to load key")
  | .requestText _ => ([], .ok (toMarker ++ " Request:\n".toList))
  | .ca _ _ input output =>
    match requestedOf knownReading folder input,
        certificateOf knownReading folder CA_CERTIFICATE_FILE_NAME with
    | some subject, some (issuer, _) =>
        ([.write "index.txt.old" (.file []), .write "serial.dat.old" (.file []),
          .write output (.file (subject ++ issuer))], .ok [])
    | _, _ => ([], .error "unable to load certificate")
  | .verify _ _ => ([], .ok "node.crt.pem: OK\n".toList)

theorem publicKey_length (key : Bytes) : (knownReading.publicKey key).length = 32 := by
  rw [knownReading]
  dsimp only
  split
  · rfl
  · rfl

theorem isByte_digits (b : UInt8) : IsByte b (digits b) := ⟨_, _, rfl, .inl rfl, .inl rfl⟩

theorem blank_line : Blank "\n    ".toList :=
  List.all_eq_true.mp (by decide)

theorem printedBytes_printBytes (column : ℕ) {key : Bytes} (h : key ≠ []) :
    PrintedBytes key (printBytes column key) := by
  fun_induction printBytes column key with
  | case1 => exact absurd rfl h
  | case2 column b => exact .one (isByte_digits b)
  | case3 column b next rest ih =>
    refine .cons (isByte_digits b) ?_ (ih (List.cons_ne_nil _ _))
    split
    · exact ⟨[], "\n    ".toList, rfl, blank_nil, blank_line⟩
    · exact ⟨[], [], rfl, blank_nil, blank_nil⟩

theorem isBlock_block {key : Bytes} (h : key.length = 32) : IsBlock key (block key) := by
  refine ⟨_, _, _, rfl, blank_line, ?_, printedBytes_printBytes 0 ?_⟩
  · intro c hc
    rw [List.mem_singleton.mp hc]
    rfl
  · rintro rfl
    cases h

def printedKey_printKey {key : Bytes} (h : key.length = 32) :
    PrintedKey knownReading key (printKey key) where
  before := "ED25519 Private-Key:\n".toList
  privateText := block key
  publicText := block (knownReading.publicKey key)
  text_eq := rfl
  before_lines := ⟨by decide, .inr ⟨"ED25519 Private-Key:".toList, rfl⟩⟩
  privateKey_length := h
  publicKey_length := publicKey_length key
  privateText_block := isBlock_block h
  publicText_block := isBlock_block (publicKey_length key)

/-- What is read of a file that was just written. -/
theorem read_written {α : Type} (read : Bytes → Option α) (folder : Folder) (name : String)
    (bytes : Bytes) :
    (content ((Change.write name (.file bytes)).apply folder) name).bind read = read bytes := by
  rw [content, get_apply, show (Change.write name (Entry.file bytes)).name = name from rfl,
    if_pos rfl]
  rfl

theorem certificate_append {subject issuer : Bytes} (hsubject : subject.length = 32)
    (hissuer : issuer.length = 32) :
    knownReading.certificate (subject ++ issuer) = some (subject, issuer) := by
  rw [knownReading]
  dsimp only
  rw [if_pos (by rw [List.length_append, hsubject, hissuer]), List.take_left' hsubject,
    List.drop_left' hsubject]

theorem requestedOf_length {folder : Folder} {name : String} {key : Bytes}
    (h : requestedOf knownReading folder name = some key) : key.length = 32 := by
  obtain ⟨bytes, -, hkey⟩ := Option.bind_eq_some_iff.mp h
  rw [knownReading] at hkey
  dsimp only at hkey
  split at hkey
  · cases hkey
    assumption
  · cases hkey

theorem certificateOf_length {folder : Folder} {name : String} {subject issuer : Bytes}
    (h : certificateOf knownReading folder name = some (subject, issuer)) :
    subject.length = 32 := by
  obtain ⟨bytes, -, hkeys⟩ := Option.bind_eq_some_iff.mp h
  rw [knownReading] at hkeys
  dsimp only at hkeys
  split at hkeys
  · rename_i hlength
    cases hkeys
    rw [List.length_take, hlength]
    rfl
  · cases hkeys

theorem knownOpenSsl_documented : Documented knownReading knownOpenSsl where
  touches := by
    intro folder call change hchange
    cases call with
    | pkey input output | selfSign config key days output | request config key output =>
      simp only [knownOpenSsl] at hchange
      split at hchange
      · rw [List.mem_singleton.mp hchange]
        exact beq_self_eq_true output
      · cases hchange
    | pkeyText file =>
      simp only [knownOpenSsl] at hchange
      split at hchange <;> cases hchange
    | pkeyPubout file output =>
      rw [List.mem_singleton.mp hchange]
      exact beq_self_eq_true output
    | ca config days input output =>
      simp only [knownOpenSsl] at hchange
      split at hchange
      · simp only [List.mem_cons, List.not_mem_nil, or_false] at hchange
        rcases hchange with rfl | rfl | rfl
        · simp [OpenSsl.touches, Change.name, Pattern.matches]
        · simp [OpenSsl.touches, Change.name, Pattern.matches]
        · simp [OpenSsl.touches, Change.name]
      · cases hchange
    | x509Text file =>
      simp only [knownOpenSsl] at hchange
      split at hchange <;> cases hchange
    | requestText file => cases hchange
    | verify caFile file => cases hchange
  pkey := by
    rintro folder input output changes printed h ⟨bytes, hbytes, hder⟩
    simp only [knownOpenSsl, hbytes] at h
    cases h
    refine ⟨⟨bytes.drop 16, ?_⟩, rfl⟩
    exact (read_written _ folder output bytes).trans
      (if_pos (List.isPrefixOf_iff_prefix.mpr hder))
  pkeyText := by
    intro folder file changes printed key h hkey
    simp only [knownOpenSsl, hkey, Prod.mk.injEq] at h
    obtain ⟨-, h⟩ := h
    split at h
    · rename_i hlength
      cases h
      exact ⟨printedKey_printKey hlength⟩
    · cases h
  pkeyPubout := by
    intro folder file output changes printed h
    cases h
    rfl
  selfSign := by
    intro folder config key days output changes printed privateKey h hkey _
    simp only [knownOpenSsl, hkey] at h
    cases h
    exact ⟨(read_written _ _ output _).trans
      (certificate_append (publicKey_length privateKey) (publicKey_length privateKey)), rfl⟩
  x509There := by
    intro folder file changes printed h
    cases hfile : content folder file with
    | none =>
      simp only [knownOpenSsl, hfile] at h
      cases h
    | some bytes => rfl
  x509Text := by
    intro folder file changes printed keys h _
    rw [knownOpenSsl] at h
    split at h
    · cases h
      exact ⟨_, rfl, by decide, .inr ⟨[':'], rfl⟩⟩
    · cases h
  request := by
    intro folder config key output changes printed privateKey h hkey _
    simp only [knownOpenSsl, hkey] at h
    cases h
    exact ⟨(read_written _ _ output _).trans (if_pos (publicKey_length privateKey)), rfl⟩
  requestText := by
    intro folder file changes printed key h _
    cases h
    exact ⟨_, rfl, by decide, .inr ⟨" Request:".toList, rfl⟩⟩
  ca := by
    intro folder config days input output changes printed subject issuer authority h hsubject
      hissuer
    simp only [knownOpenSsl, hsubject, hissuer] at h
    cases h
    refine ⟨?_, by decide, .inl rfl⟩
    exact (read_written _ _ output _).trans
      (certificate_append (requestedOf_length hsubject) (certificateOf_length hissuer))
  verify := by
    intro folder caFile file changes printed h _
    cases h
    exact ⟨by decide, .inr ⟨"node.crt.pem: OK".toList, rfl⟩⟩

end SymbolBootstrap.KnownCertificates
