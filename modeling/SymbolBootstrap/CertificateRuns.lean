import SymbolBootstrap.KnownCertificates

/-!
The certificate folder of a node over any number of runs of the certificate service, each of
which may end with an error or be cut at any of its changes. The metadata file is written last
and says for which keys the folder was made; as long as it names the keys that are asked for,
certificates are only renewed, and a renewal leaves the CA certificate as it is.

A file is written in one step. The folder holds no links.
-/
namespace SymbolBootstrap.CertificateRuns

open Library.CaseMapping Library.Changes Library.Records Library.Searching Library.Texts
open Library.Throwing Library.Traces
open SymbolBootstrap.CertificateService SymbolBootstrap.CertificateScript
open SymbolBootstrap.KnownCertificates

structure CertificateMetadata where
  version : ℕ
  transportPublicKey : Text
  mainPublicKey : Text
deriving DecidableEq

/-- The public keys of the certificates that are asked for. -/
structure NodeCertificates where
  main : Text
  transport : Text
deriving DecidableEq

structure CertificateConfigPreset where
  caCertificateExpirationInDays : ℕ
  nodeCertificateExpirationInDays : ℕ
  certificateExpirationWarningInDays : ℕ

inductive RenewMode
  | ONLY_WARNING
  | WHEN_REQUIRED
  | ALWAYS
deriving DecidableEq

inductive KeyName
  | Main
  | Transport

def METADATA_VERSION : ℕ := 1

/-- The metadata file: what cannot be loaded or has other fields is read as nothing. -/
structure MetadataFormat where
  writeYaml : CertificateMetadata → Bytes
  loadYaml : Bytes → Option CertificateMetadata

def NodeCertificates.metadata (provided : NodeCertificates) : CertificateMetadata :=
  ⟨METADATA_VERSION, provided.transport, provided.main⟩

/-- What is written for these keys is read back. -/
def MetadataFormat.Reads (format : MetadataFormat) (provided : NodeCertificates) : Prop :=
  format.loadYaml (format.writeYaml provided.metadata) = some provided.metadata

/-- The files of `config/cert`, rendered, in the order in which they come to be written. -/
structure Configuration where
  files : List (String × Bytes)
  names : (files.map Prod.fst).Perm ["ca.cnf", "node.cnf"]

/-- What one run meets: what openssl does, what it prints on the expiration, the accounts that
are resolved and the random serial. -/
structure Surroundings where
  openssl : Folder → OpenSsl → Effect
  checkEnd : Folder → String → ℕ → Text
  resolveAccount : KeyName → Text → Except String CertificatePair
  configuration : Configuration
  randomSerial : Text

/-- Computations that change the folder and can throw. -/
abbrev Changing (α : Type) := Traced FolderChange String α

def utf8 (text : Text) : Bytes := (String.ofList text).toUTF8.toList

/-- The date in `notAfter=(.*)\n`. -/
def expirationDate : Text → Option Text
  | [] => none
  | c :: rest =>
      let marker := "notAfter=".toList
      let line := (c :: rest).drop marker.length
      if marker <+: c :: rest ∧
          (line.dropWhile fun c => !isLineTerminator c).head? = some '\n' then
        some (line.takeWhile fun c => !isLineTerminator c)
      else expirationDate rest

structure Report where
  willExpire : Bool
  expirationDate : Text

/-- The report that is read from what `openssl x509 -checkend` prints. -/
def willCertificateExpire (certificateFileName : String) (stdout : Text) :
    Except String Report :=
  match (CertificateRuns.expirationDate stdout).filter (· ≠ []) with
  | none => .error ("Cannot validate " ++ certificateFileName ++
      " certificate expiration. Expiration Date cannot be resolved. Check the logs!")
  | some date =>
      if indexOf stdout "Certificate will expire".toList 0 > -1 then .ok ⟨true, date⟩
      else if indexOf stdout "Certificate will not expire".toList 0 > -1 then .ok ⟨false, date⟩
      else .error ("Cannot validate " ++ certificateFileName ++
        " certificate expiration. Check the logs!")

def toAns1 (privateKey : Text) : String :=
  "302e020100300506032b657004220420" ++ toLowerCase (String.ofList privateKey)

def validateIsTrue (value : Bool) (message : String) : Except String Unit :=
  if value then .ok () else .error message

section Service

variable (format : MetadataFormat) (hexToUint8 : String → Except String Bytes) (start : Folder)

def metadataOf (folder : Folder) : Option CertificateMetadata :=
  (content folder "metadata.yml").bind format.loadYaml

def shouldGenerateCertificate (folder : Folder) (provided : NodeCertificates) : Bool :=
  match metadataOf format folder with
  | none => true
  | some metadata =>
      metadata.mainPublicKey ≠ provided.main || metadata.transportPublicKey ≠ provided.transport ||
        metadata.version ≠ METADATA_VERSION

def writeFile (name : String) (bytes : Bytes) : Changing Unit := emit (.write name (.file bytes))

def createDerFile (privateKey : Text) (file : String) : Changing Unit := do
  let bytes ← (hexToUint8 (toAns1 privateKey) : Except String Bytes)
  writeFile file bytes

/-- The script in the container. Where it fails, that is thrown. -/
def runOpenSslCommand (surroundings : Surroundings) (commands : List Command) : Changing Text :=
  fun changes => runScript surroundings.openssl (after start changes) commands

/-- The certificates that the script printed have to be those of the accounts. -/
def checkCertificates (stdout : Text) (mainAccount transportAccount : CertificatePair)
    (provided : NodeCertificates) : Except String Unit := do
  if indexOf stdout createdMarker 0 < 0 then
    throw "Certificate creation failed. Check the logs!"
  match ← getCertificates stdout with
  | [caCertificate, nodeCertificate] =>
      validateIsTrue (caCertificate.privateKey = mainAccount.privateKey) "Invalid ca private key"
      validateIsTrue (caCertificate.publicKey = provided.main) "Invalid ca public key"
      validateIsTrue (nodeCertificate.privateKey = transportAccount.privateKey)
        "Invalid Node private key"
      validateIsTrue (nodeCertificate.publicKey = provided.transport) "Invalid Node public key"
  | certificates =>
      throw ("Certificate creation failed. 2 certificates should have been created but got: " ++
        toString certificates.length)

/-- `createCertificate` from the rendered configuration to the checks. -/
def generate (surroundings : Surroundings) (renew : Bool) (presetData : CertificateConfigPreset)
    (provided : NodeCertificates) (randomSerial : Option Text)
    (mainAccount transportAccount : CertificatePair) : Changing Unit := do
  forEach surroundings.configuration.files fun file => writeFile file.1 file.2
  createDerFile hexToUint8 mainAccount.privateKey "ca.der"
  createDerFile hexToUint8 transportAccount.privateKey "node.der"
  let serial := ((randomSerial.map trim).filter (· ≠ [])).getD surroundings.randomSerial
  writeFile "serial.dat" (utf8 (serial.flatMap lowerChar ++ ['\n']))
  let commands := createCertCommands renew presetData.caCertificateExpirationInDays
    presetData.nodeCertificateExpirationInDays
  writeFile "createNodeCertificates.sh"
    (utf8 (("set -e" :: commands.map Command.line).flatMap fun line => line.toList ++ ['\n']))
  let stdout ← runOpenSslCommand start surroundings commands
  checkCertificates stdout mainAccount transportAccount provided

def createCertificate (surroundings : Surroundings) (renew : Bool)
    (presetData : CertificateConfigPreset) (provided : NodeCertificates)
    (randomSerial : Option Text) : Changing Unit := do
  let mainAccount ← surroundings.resolveAccount .Main provided.main
  let transportAccount ← surroundings.resolveAccount .Transport provided.transport
  -- `deleteFolder`
  if renew = false then clear start
  generate hexToUint8 start surroundings renew presetData provided randomSerial mainAccount
    transportAccount
  writeFile "metadata.yml" (format.writeYaml provided.metadata)

def run (surroundings : Surroundings) (presetData : CertificateConfigPreset)
    (provided : NodeCertificates) (renewMode : RenewMode) (randomSerial : Option Text) :
    Changing Bool := do
  let folder ← current start
  if shouldGenerateCertificate format folder provided then
    createCertificate format hexToUint8 start surroundings false presetData provided randomSerial
    return true
  else
    let report ← willCertificateExpire NODE_CERTIFICATE_FILE_NAME
      (surroundings.checkEnd folder NODE_CERTIFICATE_FILE_NAME
        (presetData.certificateExpirationWarningInDays * 24 * 60 * 60))
    let shouldRenew := (report.willExpire && renewMode = .WHEN_REQUIRED) || renewMode = .ALWAYS
    if shouldRenew then
      createCertificate format hexToUint8 start surroundings true presetData provided randomSerial
    return shouldRenew

end Service

section Generate

variable {format : MetadataFormat} {hexToUint8 : String → Except String Bytes} {start : Folder}
  {reading : Reading}
  {surroundings : Surroundings} {renew : Bool} {presetData : CertificateConfigPreset}
  {provided : NodeCertificates} {randomSerial : Option Text}

/-- The entries that are left as they are before the metadata file is written. -/
def IsKept (renew : Bool) (name : String) : Prop :=
  cleaned name = false ∧ (name ∈ results → renew = true ∧ name = CA_CERTIFICATE_FILE_NAME)

theorem isKept_metadata : IsKept renew "metadata.yml" :=
  ⟨by decide, fun h => absurd h (by decide)⟩

theorem isKept_ca : IsKept true CA_CERTIFICATE_FILE_NAME :=
  ⟨by decide, fun _ => ⟨rfl, rfl⟩⟩

/-- The certificates of a folder are for the keys that are asked for. -/
structure Generated (reading : Reading) (renew : Bool) (provided : NodeCertificates)
    (folder : Folder) : Prop where
  ca : renew = false → ∃ key authority,
    certificateOf reading folder CA_CERTIFICATE_FILE_NAME = some (key, authority) ∧
      key.flatMap hexUpper = provided.main
  node : ∃ key issuer authority, privateKeyOf reading folder "node.key.pem" = some key ∧
    (reading.publicKey key).flatMap hexUpper = provided.transport ∧
    certificateOf reading folder CA_CERTIFICATE_FILE_NAME = some (issuer, authority) ∧
    certificateOf reading folder NODE_CERTIFICATE_FILE_NAME =
      some (reading.publicKey key, issuer)
  clean : ∀ name, cleaned name = true → folder.get name = none

theorem writeFile_agree {folder : Folder} {name : String} {bytes : Bytes}
    (hname : cleaned name = true) :
    Keeps start (Agree (IsKept renew) folder) (Agree (IsKept renew) folder)
      (Agree (IsKept renew) folder) (writeFile name bytes) fun _ =>
        Agree (IsKept renew) folder := by
  refine keeps_agree fun changes change hchange hkept => ?_
  obtain rfl := List.mem_singleton.mp hchange
  rw [show (Change.write name (Entry.file bytes)).name = name from rfl] at hkept
  rw [hkept.1] at hname
  cases hname

theorem createDerFile_agree {folder : Folder} {name : String} {privateKey : Text}
    (hname : cleaned name = true) :
    Keeps start (Agree (IsKept renew) folder) (Agree (IsKept renew) folder)
      (Agree (IsKept renew) folder) (createDerFile hexToUint8 privateKey name) fun _ =>
        Agree (IsKept renew) folder :=
  .bind (Q := fun _ later => Agree (IsKept renew) folder later)
    (.lift (fun _ h => ⟨h, h⟩) fun _ _ h _ => h) fun _ => writeFile_agree hname

theorem runOpenSslCommand_agree (htouches : Touches surroundings.openssl) {folder : Folder}
    {caDays nodeDays : ℕ} :
    Keeps start (Agree (IsKept renew) folder) (Agree (IsKept renew) folder)
      (Agree (IsKept renew) folder)
      (runOpenSslCommand start surroundings (createCertCommands renew caDays nodeDays)) fun _ =>
        Agree (IsKept renew) folder := by
  refine keeps_agree fun changes change hchange hkept => ?_
  obtain ⟨command, hcommand, hchanged⟩ := runScript_touches htouches hchange
  have hany : (createCertCommands renew caDays nodeDays).any (·.touches change.name) = true :=
    List.any_eq_true.mpr ⟨command, hcommand, hchanged⟩
  rcases touches_createCertCommands hany with hresult | hclean
  · obtain ⟨rfl, hname⟩ := hkept.2 hresult
    rw [hname] at hany
    cases hany
  · rw [hkept.1] at hclean
    cases hclean

theorem validateIsTrue_ok {value : Bool} {message : String} :
    validateIsTrue value message = .ok () ↔ value = true := by
  cases value with
  | false =>
    constructor
    · intro h
      cases h
    · intro h
      cases h
  | true => exact ⟨fun _ => rfl, fun _ => rfl⟩

theorem checkCertificates_ok {stdout : Text} {mainAccount transportAccount : CertificatePair}
    {caKey nodeKey : Bytes}
    (hstdout : getCertificates stdout = .ok [keyPair reading caKey, keyPair reading nodeKey])
    (h : checkCertificates stdout mainAccount transportAccount provided = .ok ()) :
    (reading.publicKey caKey).flatMap hexUpper = provided.main ∧
      (reading.publicKey nodeKey).flatMap hexUpper = provided.transport := by
  rw [checkCertificates] at h
  split at h
  · cases h
  · obtain ⟨certificates, hcertificates, h⟩ := bind_ok.mp h
    obtain rfl := Except.ok.inj (hstdout.symm.trans hcertificates)
    obtain ⟨-, -, h⟩ := bind_ok.mp h
    obtain ⟨_, hca, h⟩ := bind_ok.mp h
    obtain ⟨-, -, hnode⟩ := bind_ok.mp h
    exact ⟨of_decide_eq_true (validateIsTrue_ok.mp hca),
      of_decide_eq_true (validateIsTrue_ok.mp hnode)⟩

theorem configuration_cleaned {file : String × Bytes}
    (hfile : file ∈ surroundings.configuration.files) : cleaned file.1 = true := by
  have hname := surroundings.configuration.names.subset (List.mem_map_of_mem hfile)
  rcases List.mem_pair.mp hname with heq | heq
  · rw [heq]
    decide
  · rw [heq]
    decide

theorem generate_agree (htouches : Touches surroundings.openssl)
    (mainAccount transportAccount : CertificatePair) {folder : Folder} :
    Keeps start (Agree (IsKept renew) folder) (Agree (IsKept renew) folder)
      (Agree (IsKept renew) folder)
      (generate hexToUint8 start surroundings renew presetData provided randomSerial mainAccount
        transportAccount) fun _ => Agree (IsKept renew) folder := by
  refine .bind (Q := fun _ later => Agree (IsKept renew) folder later) ?_ fun _ =>
    .bind (createDerFile_agree (by decide)) fun _ =>
    .bind (createDerFile_agree (by decide)) fun _ => .bind (writeFile_agree (by decide)) fun _ =>
    .bind (writeFile_agree (by decide)) fun _ =>
    .bind (runOpenSslCommand_agree htouches) fun stdout =>
    .lift (fun _ h => ⟨h, h⟩) fun _ _ h _ => h
  exact .forEach (fun _ h => h) fun file hfile => writeFile_agree (configuration_cleaned hfile)

/-- The files that the script is run on, as they are written. -/
def written (surroundings : Surroundings) (caDer nodeDer serial script : Bytes) :
    List FolderChange :=
  surroundings.configuration.files.map (fun file => .write file.1 (.file file.2)) ++
    [.write "ca.der" (.file caDer), .write "node.der" (.file nodeDer),
      .write "serial.dat" (.file serial), .write "createNodeCertificates.sh" (.file script)]

theorem writeFile_returns {name : String} {bytes : Bytes} {changes more : List FolderChange}
    (h : writeFile name bytes changes = (more, .ok ())) :
    ∃ bytes, more = [.write name (.file bytes)] := by
  cases h
  exact ⟨bytes, rfl⟩

theorem createDerFile_returns {privateKey : Text} {file : String}
    {changes more : List FolderChange}
    (h : createDerFile hexToUint8 privateKey file changes = (more, .ok ())) :
    ∃ bytes, hexToUint8 (toAns1 privateKey) = .ok bytes ∧ more = [.write file (.file bytes)] := by
  obtain ⟨bytes, hbytes, hwrite⟩ := run_bind_lift_returns.mp h
  cases hwrite
  exact ⟨bytes, hbytes, rfl⟩

/-- What a generation does that returns. -/
theorem generate_returns {mainAccount transportAccount : CertificatePair}
    {changes more : List FolderChange}
    (h : generate hexToUint8 start surroundings renew presetData provided randomSerial mainAccount
      transportAccount changes = (more, .ok ())) :
    ∃ caDer nodeDer serial script made stdout,
      hexToUint8 (toAns1 mainAccount.privateKey) = .ok caDer ∧
      hexToUint8 (toAns1 transportAccount.privateKey) = .ok nodeDer ∧
      runScript surroundings.openssl
          (after start (changes ++ written surroundings caDer nodeDer serial script))
          (createCertCommands renew presetData.caCertificateExpirationInDays
            presetData.nodeCertificateExpirationInDays) = (made, .ok stdout) ∧
      checkCertificates stdout mainAccount transportAccount provided = .ok () ∧
      more = written surroundings caDer nodeDer serial script ++ made := by
  obtain ⟨_, _, _, hfiles, h₁, rfl⟩ := run_bind_returns.mp h
  obtain ⟨_, _, _, hca, h₂, rfl⟩ := run_bind_returns.mp h₁
  obtain ⟨_, _, _, hnode, h₃, rfl⟩ := run_bind_returns.mp h₂
  obtain ⟨_, _, _, hserial, h₄, rfl⟩ := run_bind_returns.mp h₃
  obtain ⟨_, _, _, hscript, h₅, rfl⟩ := run_bind_returns.mp h₄
  obtain ⟨made, stdout, _, hrun, h₆, rfl⟩ := run_bind_returns.mp h₅
  obtain ⟨caDer, hcaDer, rfl⟩ := createDerFile_returns hca
  obtain ⟨nodeDer, hnodeDer, rfl⟩ := createDerFile_returns hnode
  simp only [writeFile, forEach_emit] at hfiles
  cases hfiles
  obtain ⟨serial, rfl⟩ := writeFile_returns hserial
  obtain ⟨script, rfl⟩ := writeFile_returns hscript
  cases hcheck : checkCertificates stdout mainAccount transportAccount provided with
  | error error =>
    rw [hcheck] at h₆
    cases h₆
  | ok checked =>
    rw [hcheck] at h₆
    cases h₆
    refine ⟨caDer, nodeDer, serial, script, made, stdout, hcaDer, hnodeDer, ?_, hcheck, ?_⟩
    · rw [← hrun, runOpenSslCommand, written]
      simp only [List.append_assoc, List.cons_append, List.nil_append]
    · rw [written]
      simp only [List.append_assoc, List.cons_append, List.nil_append, List.append_nil]

theorem fileWith_write {P : Bytes → Prop} {folder : Folder} {name other : String} {bytes : Bytes}
    (h : if name = other then P bytes else FileWith P folder other) :
    FileWith P ((Change.write name (.file bytes)).apply folder) other := by
  have hget := get_apply folder (Change.write name (Entry.file bytes)) other
  rw [Change.name, Change.value] at hget
  by_cases hname : name = other
  · rw [if_pos hname] at h hget
    refine ⟨bytes, ?_, h⟩
    rw [content, hget]
    rfl
  · rw [if_neg hname] at h hget
    exact h.congr hget

/-- The last write of a file counts. -/
theorem fileWith_files {P : Bytes → Prop} {folder : Folder} {files : List (String × Bytes)}
    (hfiles : ∀ file ∈ files, P file.2) {name : String} (hname : name ∈ files.map Prod.fst) :
    FileWith P (after folder (files.map fun file => .write file.1 (.file file.2))) name := by
  induction files using List.reverseRecOn with
  | nil => cases hname
  | append_singleton front file ih =>
    rw [List.map_append, List.map_singleton, after_concat]
    refine fileWith_write ?_
    split
    · exact hfiles file (by simp)
    · rename_i hother
      refine ih (fun file hfile => hfiles file (List.mem_append_left _ hfile)) ?_
      rw [List.map_append, List.mem_append] at hname
      rcases hname with hfront | hlast
      · exact hfront
      · exact absurd (List.mem_singleton.mp hlast).symm hother

/-- The digits before a private key are read as the bytes before it. -/
def ReadsDer (hexToUint8 : String → Except String Bytes) : Prop :=
  ∀ privateKey bytes, hexToUint8 (toAns1 privateKey) = .ok bytes → IsDer bytes

/-- The configurations give no name with `priv:` in it. -/
def Surroundings.Plain (reading : Reading) (surroundings : Surroundings) : Prop :=
  ∀ file ∈ surroundings.configuration.files, IsPlain reading file.2

theorem written_cleaned {caDer nodeDer serial script : Bytes} {change : FolderChange}
    (h : change ∈ written surroundings caDer nodeDer serial script) :
    cleaned change.name = true := by
  have hnames : ∀ name ∈ ["ca.der", "node.der", "serial.dat", "createNodeCertificates.sh"],
      cleaned name = true := by
    decide +kernel
  rcases List.mem_append.mp h with hfiles | hother
  · obtain ⟨file, hfile, rfl⟩ := List.mem_map.mp hfiles
    exact configuration_cleaned hfile
  · exact hnames _ (List.mem_map_of_mem (f := Change.name) hother)

theorem inputs_written (hplain : surroundings.Plain reading) {folder : Folder}
    (hread : renew = true → AuthorityRead reading folder) {caDer nodeDer : Bytes}
    (hca : IsDer caDer) (hnode : IsDer nodeDer) (serial script : Bytes) :
    Inputs reading renew (after folder (written surroundings caDer nodeDer serial script)) := by
  have hconfiguration : ∀ name, name = "ca.cnf" ∨ name = "node.cnf" → FileWith (IsPlain reading)
      (after folder (surroundings.configuration.files.map fun file =>
        .write file.1 (.file file.2))) name := fun name hname =>
    fileWith_files hplain (surroundings.configuration.names.mem_iff.mpr (by simpa using hname))
  have hauthority : (after folder (written surroundings caDer nodeDer serial script)).get
      CA_CERTIFICATE_FILE_NAME = folder.get CA_CERTIFICATE_FILE_NAME := by
    refine get_after_other fun change hchange hname => ?_
    have hclean := written_cleaned hchange
    rw [hname] at hclean
    revert hclean
    decide
  refine ⟨?_, ?_, ?_, ?_, fun hrenew => (hread hrenew).congr hauthority⟩
  all_goals rw [written, after_append]
  · exact fileWith_write (fileWith_write (fileWith_write (fileWith_write hca)))
  · exact fileWith_write (fileWith_write (fileWith_write hnode))
  · exact fileWith_write (fileWith_write (fileWith_write (fileWith_write
      (hconfiguration _ (.inl rfl)))))
  · exact fileWith_write (fileWith_write (fileWith_write (fileWith_write
      (hconfiguration _ (.inr rfl)))))

/-- Where the script is given what it needs, the certificates are for the keys. -/
theorem generate_generated (hssl : Documented reading surroundings.openssl)
    (hder : ReadsDer hexToUint8) (hplain : surroundings.Plain reading)
    (mainAccount transportAccount : CertificatePair) {folder : Folder}
    (hread : renew = true → AuthorityRead reading folder) :
    Keeps start (Agree (IsKept renew) folder) (Agree (IsKept renew) folder)
      (Agree (IsKept renew) folder)
      (generate hexToUint8 start surroundings renew presetData provided randomSerial mainAccount
        transportAccount) fun _ later =>
        Agree (IsKept renew) folder later ∧ Generated reading renew provided later := by
  refine Triple.returns (generate_agree hssl.touches mainAccount transportAccount) ?_
  intro changes more _ hagree hrun
  obtain ⟨caDer, nodeDer, serial, script, made, stdout, hca, hnode, hscript, hcheck, rfl⟩ :=
    generate_returns hrun
  have hnow : renew = true → AuthorityRead reading (after start changes) := by
    intro hrenew
    subst hrenew
    exact (hread rfl).congr (hagree _ isKept_ca)
  have hinputs := inputs_written hplain hnow (hder _ _ hca) (hder _ _ hnode) serial script
  rw [← after_append] at hinputs
  obtain ⟨caKey, nodeKey, hstdout, hcertified⟩ :=
    executed_script hssl hinputs (runScript_executed hscript)
  rw [← List.append_assoc, after_append]
  obtain ⟨hmain, htransport⟩ := checkCertificates_ok hstdout hcheck
  obtain ⟨issuer, authority, hissuer, hnodeCertificate⟩ := hcertified.node
  refine ⟨fun hrenew => ?_, ?_, hcertified.clean⟩
  · exact ⟨_, _, hcertified.created hrenew, hmain⟩
  · exact ⟨nodeKey, issuer, authority, hcertified.nodeKeyFile, htransport, hissuer,
      hnodeCertificate⟩

end Generate

section Runs

variable {format : MetadataFormat} {hexToUint8 : String → Except String Bytes} {start : Folder}
  {reading : Reading}
  {surroundings : Surroundings} {presetData : CertificateConfigPreset}
  {provided : NodeCertificates} {renewMode : RenewMode} {randomSerial : Option Text}

variable (format) in
/-- The metadata file names the keys that are asked for. -/
def Recorded (provided : NodeCertificates) (folder : Folder) : Prop :=
  metadataOf format folder = some provided.metadata

variable (format reading) in
/-- Where there is metadata, the CA certificate, if there is one, is for the main key in it. -/
def Vouched (folder : Folder) : Prop :=
  ∀ metadata, metadataOf format folder = some metadata →
    (folder.get CA_CERTIFICATE_FILE_NAME).isSome → ∃ key authority,
      certificateOf reading folder CA_CERTIFICATE_FILE_NAME = some (key, authority) ∧
        key.flatMap hexUpper = metadata.mainPublicKey

variable (format reading) in
/-- All that a node needs is there, for the keys that were asked for, and nothing that was only
used to make it. -/
structure Complete (provided : NodeCertificates) (folder : Folder) : Prop where
  recorded : Recorded format provided folder
  certificates : ∃ nodeKey caKey authority,
    certificateOf reading folder CA_CERTIFICATE_FILE_NAME = some (caKey, authority) ∧
      caKey.flatMap hexUpper = provided.main ∧
      privateKeyOf reading folder "node.key.pem" = some nodeKey ∧
      (reading.publicKey nodeKey).flatMap hexUpper = provided.transport ∧
      certificateOf reading folder NODE_CERTIFICATE_FILE_NAME =
        some (reading.publicKey nodeKey, caKey)
  clean : ∀ name, cleaned name = true → folder.get name = none

theorem shouldGenerateCertificate_eq_false {folder : Folder} :
    shouldGenerateCertificate format folder provided = false ↔
      Recorded format provided folder := by
  rw [shouldGenerateCertificate, Recorded]
  cases metadataOf format folder with
  | none => simp
  | some metadata =>
    obtain ⟨version, transport, main⟩ := metadata
    simp only [Bool.or_eq_false_iff, decide_eq_false_iff_not, ne_eq, not_not, Option.some.injEq,
      NodeCertificates.metadata, CertificateMetadata.mk.injEq]
    exact ⟨fun h => ⟨h.2, h.1.2, h.1.1⟩, fun h => ⟨⟨h.2.2, h.2.1⟩, h.1⟩⟩

theorem metadataOf_congr {folder later : Folder}
    (h : later.get "metadata.yml" = folder.get "metadata.yml") :
    metadataOf format later = metadataOf format folder := by
  rw [metadataOf, metadataOf, content_congr h]

theorem Recorded.congr {folder later : Folder} (hrecorded : Recorded format provided folder)
    (h : later.get "metadata.yml" = folder.get "metadata.yml") :
    Recorded format provided later := by
  rw [Recorded, metadataOf_congr h]
  exact hrecorded

/-- Once the metadata is written, the keys are recorded. -/
theorem recorded_written (hyaml : format.Reads provided) (folder : Folder) :
    Recorded format provided
      ((Change.write "metadata.yml" (.file (format.writeYaml provided.metadata))).apply
        folder) := by
  rw [Recorded, metadataOf, content, get_apply]
  exact hyaml

theorem get_metadata_written (folder : Folder) {bytes : Bytes} {name : String}
    (h : name ≠ "metadata.yml") :
    ((Change.write "metadata.yml" (.file bytes)).apply folder).get name = folder.get name := by
  rw [get_apply, if_neg]
  exact h.symm

/-- A renewal leaves the CA certificate and what is recorded as they are. -/
theorem createCertificate_renewed (hyaml : format.Reads provided)
    (htouches : Touches surroundings.openssl) (ca : Option Entry) :
    let I := fun folder : Folder =>
      Recorded format provided folder ∧ folder.get CA_CERTIFICATE_FILE_NAME = ca
    Keeps start I I I (createCertificate format hexToUint8 start surroundings true presetData
      provided randomSerial) fun _ => I := by
  intro I
  refine .bind (Q := fun _ later => I later)
    (.lift (fun _ h => ⟨h, h⟩) fun _ _ h _ => h) fun mainAccount => ?_
  refine .bind (Q := fun _ later => I later)
    (.lift (fun _ h => ⟨h, h⟩) fun _ _ h _ => h) fun transportAccount => ?_
  refine .bind (Q := fun _ later => I later) (.at fun changes hI => ?_)
    fun _ => ?_
  · have hagree : ∀ later, Agree (IsKept true) (after start changes) later → I later :=
      fun later h => ⟨hI.1.congr (h _ isKept_metadata), (h _ isKept_ca).trans hI.2⟩
    refine ((generate_agree htouches mainAccount transportAccount).weaken ?_ ?_).mono
      (fun more => hagree _) fun more => hagree _
    · rintro _ rfl
      exact Agree.refl _ _
    · exact fun _ _ h => hagree _ h
  · refine Keeps.change (fun _ h => h) fun folder h => ?_
    have hwritten : I ((Change.write "metadata.yml"
        (.file (format.writeYaml provided.metadata))).apply folder) :=
      ⟨recorded_written hyaml folder, (get_metadata_written folder (by decide)).trans h.2⟩
    exact ⟨hwritten, hwritten⟩

theorem run_renewed (hyaml : format.Reads provided)
    (htouches : Touches surroundings.openssl) (ca : Option Entry) :
    let I := fun folder : Folder =>
      Recorded format provided folder ∧ folder.get CA_CERTIFICATE_FILE_NAME = ca
    Keeps start I I I (run format hexToUint8 start surroundings presetData provided renewMode
      randomSerial) fun _ => I := by
  intro I
  refine .bind (Keeps.current fun _ h => h) fun folder => ?_
  by_cases hrecorded : Recorded format provided folder
  · rw [if_neg (by rw [shouldGenerateCertificate_eq_false.mpr hrecorded]; exact Bool.false_ne_true)]
    refine .bind (Q := fun _ later => I later) (.lift (fun _ h => ⟨h.2, h.2⟩) fun _ _ h _ => h.2)
      fun report => ?_
    dsimp only
    split
    · exact .bind (createCertificate_renewed hyaml htouches ca) fun _ => .pure fun _ h => ⟨h, h⟩
    · exact .pure fun _ h => ⟨h, h⟩
  · rintro changes ⟨rfl, hI⟩
    exact absurd hI.1 hrecorded

theorem vouched_of_no_metadata {folder : Folder} (h : folder.get "metadata.yml" = none) :
    Vouched format reading folder := by
  intro metadata hmetadata
  rw [metadataOf, content, h] at hmetadata
  cases hmetadata

theorem Vouched.congr {folder later : Folder} (h : Vouched format reading folder)
    (hmetadata : later.get "metadata.yml" = folder.get "metadata.yml")
    (hca : later.get CA_CERTIFICATE_FILE_NAME = folder.get CA_CERTIFICATE_FILE_NAME) :
    Vouched format reading later := by
  intro metadata hread hsome
  rw [metadataOf_congr hmetadata] at hread
  rw [hca] at hsome
  rw [certificateOf_congr hca]
  exact h metadata hread hsome

/-- Where the metadata names the keys, the CA certificate can be read. -/
theorem Vouched.authorityRead {folder : Folder} (h : Vouched format reading folder)
    (hrecorded : Recorded format provided folder) : AuthorityRead reading folder := by
  intro hsome
  obtain ⟨key, authority, hkeys, -⟩ := h _ hrecorded hsome
  exact ⟨_, hkeys⟩

/-- A folder that is emptied never says more than it did. -/
theorem Vouched.removed {folder : Folder} (h : Vouched format reading folder)
    (names : List String) : Vouched format reading (after folder (names.map .remove)) := by
  by_cases hmetadata : "metadata.yml" ∈ names
  · refine vouched_of_no_metadata ?_
    rw [get_after_removed, if_pos hmetadata]
  · intro metadata hread hsome
    rw [get_after_removed] at hsome
    split at hsome
    · cases hsome
    · rename_i hca
      have hcongr : (after folder (names.map .remove)).get CA_CERTIFICATE_FILE_NAME =
          folder.get CA_CERTIFICATE_FILE_NAME := by rw [get_after_removed, if_neg hca]
      have hsame : (after folder (names.map .remove)).get "metadata.yml" =
          folder.get "metadata.yml" := by rw [get_after_removed, if_neg hmetadata]
      rw [metadataOf_congr hsame] at hread
      rw [certificateOf_congr hcongr]
      exact h metadata hread hsome

theorem Complete.vouched {folder : Folder} (h : Complete format reading provided folder) :
    Vouched format reading folder := by
  intro metadata hread _
  obtain rfl := Option.some.inj (h.recorded.symm.trans hread)
  obtain ⟨nodeKey, caKey, authority, hca, hmain, -⟩ := h.certificates
  exact ⟨caKey, authority, hca, hmain⟩

/-- With the metadata, the generated files are complete. -/
theorem Generated.written {renew : Bool} {folder : Folder}
    (hgenerated : Generated reading renew provided folder) (hyaml : format.Reads provided)
    (hmain : ∀ key authority,
      certificateOf reading folder CA_CERTIFICATE_FILE_NAME = some (key, authority) →
        key.flatMap hexUpper = provided.main) :
    Complete format reading provided ((Change.write "metadata.yml"
        (.file (format.writeYaml provided.metadata))).apply folder) := by
  obtain ⟨nodeKey, caKey, authority, hkey, htransport, hca, hnode⟩ := hgenerated.node
  refine ⟨recorded_written hyaml folder,
    ⟨nodeKey, caKey, authority, ?_, hmain _ _ hca, ?_, htransport, ?_⟩, fun name hname => ?_⟩
  · rw [certificateOf_congr (get_metadata_written folder (by decide)), hca]
  · rw [privateKeyOf_congr (get_metadata_written folder (by decide)), hkey]
  · rw [certificateOf_congr (get_metadata_written folder (by decide)), hnode]
  · rw [get_metadata_written folder, hgenerated.clean name hname]
    rintro rfl
    revert hname
    decide

/-- Nothing but the results and the metadata. -/
def OnlyResults (folder : Folder) : Prop :=
  ∀ name ∈ folder.names, name ∈ results ∨ name = "metadata.yml"

theorem createCertificate_created (hyaml : format.Reads provided)
    (hssl : Documented reading surroundings.openssl) (hder : ReadsDer hexToUint8)
    (hplain : surroundings.Plain reading) :
    Keeps start (Vouched format reading) (Vouched format reading) (Vouched format reading)
      (createCertificate format hexToUint8 start surroundings false presetData provided
        randomSerial)
      fun _ folder => Complete format reading provided folder ∧ OnlyResults folder := by
  refine .bind (Q := fun _ later => Vouched format reading later)
    (.lift (fun _ h => ⟨h, h⟩) fun _ _ h _ => h) fun mainAccount => ?_
  refine .bind (Q := fun _ later => Vouched format reading later)
    (.lift (fun _ h => ⟨h, h⟩) fun _ _ h _ => h) fun transportAccount => ?_
  refine .bind (Q := fun _ later => ∀ name, later.get name = none) (.at fun changes h => ?_)
    fun _ => ?_
  · refine (Keeps.clear h.removed).weaken ?_ fun _ _ h => h
    rintro _ rfl
    rfl
  refine .bind (Q := fun _ later => (∀ name, IsKept false name → later.get name = none) ∧
    Generated reading false provided later) (.at fun changes hempty => ?_) fun _ => ?_
  · have hagree : ∀ later, Agree (IsKept false) (after start changes) later →
        ∀ name, IsKept false name → later.get name = none :=
      fun later h name hname => (h name hname).trans (hempty name)
    have hvouched : ∀ later, Agree (IsKept false) (after start changes) later →
        Vouched format reading later :=
      fun later h => vouched_of_no_metadata (hagree later h _ isKept_metadata)
    refine ((generate_generated hssl hder hplain mainAccount transportAccount
      (fun hrenew => Bool.noConfusion hrenew)).weaken ?_ ?_).mono
      (fun _ => hvouched _) fun _ => hvouched _
    · rintro _ rfl
      exact Agree.refl _ _
    · exact fun _ _ h => ⟨hagree _ h.1, h.2⟩
  · refine Keeps.change (fun folder h => vouched_of_no_metadata (h.1 _ isKept_metadata)) ?_
    rintro folder ⟨hempty, hgenerated⟩
    obtain ⟨caKey, authority, hca, hmain⟩ := hgenerated.ca rfl
    have hcomplete : Complete format reading provided ((Change.write "metadata.yml"
        (.file (format.writeYaml provided.metadata))).apply folder) := by
      refine hgenerated.written hyaml fun key authority' hkey => ?_
      obtain ⟨rfl, -⟩ := Prod.mk.inj (Option.some.inj (hca.symm.trans hkey))
      exact hmain
    refine ⟨hcomplete.vouched, hcomplete, fun name hname => ?_⟩
    by_contra hother
    obtain ⟨hresult, hmetadata⟩ := not_or.mp hother
    rcases mem_names_apply hname with heq | hmem
    · exact hmetadata heq
    · obtain ⟨entry, hentry⟩ := Record.mem_names_iff.mp hmem
      have hclean : cleaned name = false := by
        by_contra htrue
        rw [hgenerated.clean name (Bool.of_not_eq_false htrue)] at hentry
        cases hentry
      rw [hempty name ⟨hclean, fun h => absurd h hresult⟩] at hentry
      cases hentry

theorem createCertificate_completed (hyaml : format.Reads provided)
    (hssl : Documented reading surroundings.openssl) (hder : ReadsDer hexToUint8)
    (hplain : surroundings.Plain reading) :
    Keeps start (Vouched format reading) (Vouched format reading)
      (fun folder => Recorded format provided folder ∧ Vouched format reading folder)
      (createCertificate format hexToUint8 start surroundings true presetData provided randomSerial)
      fun _ => Complete format reading provided := by
  let P := fun folder => Recorded format provided folder ∧ Vouched format reading folder
  refine .bind (Q := fun _ later => P later)
    (.lift (fun _ h => ⟨h.2, h.2⟩) fun _ _ h _ => h) fun mainAccount => ?_
  refine .bind (Q := fun _ later => P later)
    (.lift (fun _ h => ⟨h.2, h.2⟩) fun _ _ h _ => h) fun transportAccount => ?_
  refine .bind (Q := fun _ later => P later ∧ Generated reading true provided later)
    (.at fun changes hP => ?_) fun _ => ?_
  · have hagree : ∀ later, Agree (IsKept true) (after start changes) later → P later :=
      fun later h => ⟨hP.1.congr (h _ isKept_metadata),
        hP.2.congr (h _ isKept_metadata) (h _ isKept_ca)⟩
    refine ((generate_generated hssl hder hplain mainAccount transportAccount
      fun _ => hP.2.authorityRead hP.1).weaken ?_ ?_).mono
      (fun _ h => (hagree _ h).2) fun _ h => (hagree _ h).2
    · rintro _ rfl
      exact Agree.refl _ _
    · exact fun _ _ h => ⟨hagree _ h.1, h.2⟩
  · refine Keeps.change (fun folder h => h.1.2) ?_
    rintro folder ⟨⟨hrecorded, hvouched⟩, hgenerated⟩
    have hcomplete : Complete format reading provided ((Change.write "metadata.yml"
        (.file (format.writeYaml provided.metadata))).apply folder) := by
      refine hgenerated.written hyaml fun key authority hkey => ?_
      have hsome : (folder.get CA_CERTIFICATE_FILE_NAME).isSome := by
        by_contra hnone
        rw [Option.not_isSome_iff_eq_none] at hnone
        rw [certificateOf, content, hnone] at hkey
        cases hkey
      obtain ⟨caKey, authority', hca, hmain⟩ := hvouched _ hrecorded hsome
      obtain ⟨rfl, -⟩ := Prod.mk.inj (Option.some.inj (hca.symm.trans hkey))
      exact hmain
    exact ⟨hcomplete.vouched, hcomplete⟩

/-- What a run gives that created or renewed the certificates. -/
theorem run_completed (hyaml : format.Reads provided)
    (hssl : Documented reading surroundings.openssl) (hder : ReadsDer hexToUint8)
    (hplain : surroundings.Plain reading) {folder : Folder}
    (hfolder : Vouched format reading folder) :
    Keeps start (Vouched format reading) (Vouched format reading) (· = folder)
      (run format hexToUint8 start surroundings presetData provided renewMode randomSerial)
      fun created later => Vouched format reading later ∧ (created = true →
        Complete format reading provided later ∧
          (¬ Recorded format provided folder → OnlyResults later)) := by
  have hvouched : ∀ later, later = folder → Vouched format reading later := by
    rintro _ rfl
    exact hfolder
  refine .bind (Keeps.current hvouched) fun now => ?_
  by_cases hnow : now = folder
  swap
  · rintro changes ⟨hread, hsame⟩
    exact absurd (hread.trans hsame) hnow
  subst hnow
  by_cases hrecorded : Recorded format provided now
  · rw [if_neg (by rw [shouldGenerateCertificate_eq_false.mpr hrecorded]; exact Bool.false_ne_true)]
    refine .bind (Q := fun _ later => later = now)
      (.lift (fun _ h => ⟨hvouched _ h.2, hvouched _ h.2⟩) fun _ _ h _ => h.2) fun report => ?_
    dsimp only
    split
    · refine .bind (Q := fun _ later => Complete format reading provided later) ?_ fun _ =>
        .pure fun later h => ?_
      · refine (createCertificate_completed hyaml hssl hder hplain).weaken ?_ fun _ _ h => h
        intro later hlater
        exact ⟨hlater.symm ▸ hrecorded, hvouched _ hlater⟩
      · exact ⟨h.vouched, h.vouched, fun _ => ⟨h, fun hnot => absurd hrecorded hnot⟩⟩
    · rename_i hrenew
      exact .pure fun later h => ⟨hvouched _ h, hvouched _ h, fun hcreated =>
        absurd hcreated hrenew⟩
  · have hgenerate : shouldGenerateCertificate format now provided = true := by
      by_contra hfalse
      exact hrecorded (shouldGenerateCertificate_eq_false.mp (Bool.not_eq_true _ ▸ hfalse))
    rw [if_pos hgenerate]
    refine .bind (Q := fun _ later => Complete format reading provided later ∧ OnlyResults later)
      ?_ fun _ => .pure fun later h => ?_
    · refine (createCertificate_created hyaml hssl hder hplain).weaken ?_ fun _ _ h => h
      exact fun later h => hvouched _ h.2
    · exact ⟨h.1.vouched, h.1.vouched, fun _ => ⟨h.1, fun _ => h.2⟩⟩

/-- A run, and how many changes it gets to make. -/
structure Attempt where
  surroundings : Surroundings
  presetData : CertificateConfigPreset
  provided : NodeCertificates
  renewMode : RenewMode
  randomSerial : Option Text
  moment : ℕ

variable (format hexToUint8) in
def Attempt.run (start : Folder) (attempt : Attempt) : Changing Bool :=
  CertificateRuns.run format hexToUint8 start attempt.surroundings attempt.presetData
    attempt.provided attempt.renewMode attempt.randomSerial

variable (format hexToUint8) in
/-- The runs one after another, each over or cut. -/
def runs (start : Folder) (attempts : List Attempt) : Traced FolderChange Empty Unit :=
  forEach attempts fun attempt => cut attempt.moment (attempt.run format hexToUint8 start)

end Runs

section Known

def upperHex (key : Bytes) : Text := key.flatMap hexUpper

def knownProvided : NodeCertificates := ⟨upperHex caPublicKey, upperHex nodePublicKey⟩

def ascii (text : Text) : Bytes := text.map fun c => UInt8.ofNat c.toNat

def knownYaml (metadata : CertificateMetadata) : Bytes :=
  ascii ("version: ".toList ++ (toString metadata.version).toList ++
    "\ntransportPublicKey: ".toList ++ metadata.transportPublicKey ++
    "\nmainPublicKey: ".toList ++ metadata.mainPublicKey ++ ['\n'])

/-- It knows how one text is read. -/
def knownFormat : MetadataFormat where
  writeYaml := knownYaml
  loadYaml bytes :=
    if bytes = knownYaml knownProvided.metadata then some knownProvided.metadata else none

def knownSurroundings : Surroundings where
  openssl := knownOpenSsl
  checkEnd _ _ _ := "notAfter=Nov  5 14:44:23 2040 GMT\nCertificate will not expire\n".toList
  resolveAccount
    | .Main, publicKey => .ok ⟨upperHex caPrivateKey, publicKey⟩
    | .Transport, publicKey => .ok ⟨upperHex nodePrivateKey, publicKey⟩
  configuration := ⟨[("ca.cnf", []), ("node.cnf", [])], .refl _⟩
  randomSerial := ['0', '0']

theorem loadYaml_known :
    knownFormat.loadYaml (knownYaml knownProvided.metadata) = some knownProvided.metadata := by
  simp only [knownFormat, if_true]

theorem knownFormat_reads : knownFormat.Reads knownProvided := loadYaml_known

/-- A forced renewal that gets to make so many changes. -/
def forced (moment : ℕ) : Attempt :=
  ⟨knownSurroundings, ⟨7300, 375, 30⟩, knownProvided, .ALWAYS, none, moment⟩

def readKnownHex (text : String) : Except String Bytes := readHex text.toList

/-- A folder with certificates. -/
def readyFolder : Folder where
  entries :=
    [(CA_CERTIFICATE_FILE_NAME, .file (caPublicKey ++ caPublicKey)),
      (NODE_CERTIFICATE_FILE_NAME, .file (nodePublicKey ++ caPublicKey)),
      ("node.key.pem", .file (ans1 ++ nodePrivateKey)),
      ("metadata.yml", .file (knownYaml knownProvided.metadata))]
  distinct := by decide

theorem readyFolder_recorded : Recorded knownFormat knownProvided readyFolder := loadYaml_known

theorem forced_known (moments : List ℕ) : ∀ attempt ∈ moments.map forced,
    Documented knownReading attempt.surroundings.openssl ∧
      attempt.surroundings.Plain knownReading ∧ attempt.provided = knownProvided := by
  intro attempt hattempt
  obtain ⟨moment, -, rfl⟩ := List.mem_map.mp hattempt
  exact ⟨knownOpenSsl_documented, fun file _ => rfl, rfl⟩

theorem readHex_prefix {text rest : Text} {front bytes : Bytes} (htext : readHex text = .ok front)
    (h : readHex (text ++ rest) = .ok bytes) : front <+: bytes := by
  fun_induction readHex text generalizing front bytes with
  | case1 =>
    cases htext
    exact List.nil_prefix
  | case2 c => cases htext
  | case3 high low text ih =>
    obtain ⟨more, hmore, hpure⟩ := bind_ok.mp htext
    cases hpure
    obtain ⟨all, hall, hpure⟩ := bind_ok.mp h
    cases hpure
    exact (List.cons_prefix_cons).mpr ⟨rfl, ih hmore hall⟩

theorem readHex_ans1 : readHex "302e020100300506032b657004220420".toList = .ok ans1 := by
  decide +kernel

theorem readKnownHex_readsDer : ReadsDer readKnownHex := by
  intro privateKey bytes h
  unfold readKnownHex toAns1 at h
  rw [String.toList_append] at h
  exact readHex_prefix readHex_ans1 h

end Known

section Safety

variable {format : MetadataFormat} {hexToUint8 : String → Except String Bytes} {start : Folder}
  {reading : Reading}

/-- Once a folder is recorded for the keys that are asked for, no run ever changes its CA
certificate or what is recorded, whatever fails and wherever a run is cut. -/
theorem ca_certificate_kept (hstart : Recorded format provided start)
    (hyaml : format.Reads provided) {attempts : List Attempt}
    (htouches : ∀ attempt ∈ attempts, Touches attempt.surroundings.openssl)
    (hprovided : ∀ attempt ∈ attempts, attempt.provided = provided) :
    ∀ changes, changes <+: (runs format hexToUint8 start attempts []).1 →
      Recorded format provided (after start changes) ∧
        (after start changes).get CA_CERTIFICATE_FILE_NAME =
          start.get CA_CERTIFICATE_FILE_NAME := by
  let I := fun folder : Folder => Recorded format provided folder ∧
    folder.get CA_CERTIFICATE_FILE_NAME = start.get CA_CERTIFICATE_FILE_NAME
  have hruns : Keeps start I I I (runs format hexToUint8 start attempts) fun _ => I := by
    refine .forEach (fun _ h => h) fun attempt hattempt => ?_
    obtain rfl := hprovided attempt hattempt
    exact (run_renewed hyaml (htouches attempt hattempt) _).cut fun _ h => h
  exact hruns.moment ⟨hstart, rfl⟩

theorem ca_certificate_kept_forced :
    Recorded knownFormat knownProvided readyFolder ∧
      ∀ changes, changes <+: (runs knownFormat readKnownHex readyFolder
          ([9, 25, 100].map forced) []).1 →
        Recorded knownFormat knownProvided (after readyFolder changes) ∧
          (after readyFolder changes).get CA_CERTIFICATE_FILE_NAME =
            readyFolder.get CA_CERTIFICATE_FILE_NAME :=
  ⟨readyFolder_recorded, ca_certificate_kept readyFolder_recorded knownFormat_reads
    (fun attempt h => (forced_known _ attempt h).1.touches)
    fun attempt h => (forced_known _ attempt h).2.2⟩

/-- At every moment of every sequence of runs the metadata vouches for the CA certificate, and
a further run that creates or renews certificates leaves them complete. -/
theorem certificates_vouched (hstart : Vouched format reading start) {attempts : List Attempt}
    {last : Attempt} (hyaml : ∀ attempt ∈ last :: attempts, format.Reads attempt.provided)
    (hssl : ∀ attempt ∈ last :: attempts, Documented reading attempt.surroundings.openssl)
    (hder : ReadsDer hexToUint8)
    (hplain : ∀ attempt ∈ last :: attempts, attempt.surroundings.Plain reading) :
    let earlier := (runs format hexToUint8 start attempts []).1
    let run := last.run format hexToUint8 start earlier
    (∀ changes, changes <+: earlier ++ run.1 → Vouched format reading (after start changes)) ∧
    (run.2 = .ok true →
      Complete format reading last.provided (after start (earlier ++ run.1)) ∧
        (¬ Recorded format last.provided (after start earlier) →
          OnlyResults (after start (earlier ++ run.1)))) := by
  intro earlier run
  let V := Vouched format reading
  have hruns : Keeps start V V V (runs format hexToUint8 start attempts) fun _ => V := by
    refine .forEach (fun _ h => h) fun attempt hattempt => ?_
    have hmem := List.mem_cons_of_mem last hattempt
    refine Triple.cut (E := fun changes => V (after start changes)) (Q := fun _ _ => True)
      (.at fun changes h => ?_) fun _ h => h
    refine (run_completed (hyaml attempt hmem) (hssl attempt hmem) hder (hplain attempt hmem)
      h).weaken ?_ fun _ _ _ => trivial
    rintro _ rfl
    rfl
  have hearlier := hruns.moment hstart
  have hlast : Keeps start V V (· = after start earlier) (last.run format hexToUint8 start) _ :=
    run_completed (hyaml last List.mem_cons_self) (hssl last List.mem_cons_self) hder
      (hplain last List.mem_cons_self) (hearlier _ (List.prefix_refl _))
  obtain ⟨hmoment, hreturn⟩ := hlast earlier rfl
  constructor
  · intro changes hchanges
    rcases List.prefix_or_prefix_of_prefix hchanges (List.prefix_append earlier _) with
      hfirst | ⟨later, rfl⟩
    · exact hearlier changes hfirst
    · exact hmoment later ((List.prefix_append_right_inj earlier).mp hchanges)
  · intro htrue
    rw [show (last.run format hexToUint8 start earlier).2 = .ok true from htrue] at hreturn
    exact hreturn.2 rfl

theorem certificates_vouched_forced :
    let earlier := (runs knownFormat readKnownHex Record.empty ([9].map forced) []).1
    let run := (forced 100).run knownFormat readKnownHex Record.empty earlier
    run.2 = .ok true ∧
    (∀ changes, changes <+: earlier ++ run.1 →
      Vouched knownFormat knownReading (after Record.empty changes)) ∧
    (run.2 = .ok true →
      Complete knownFormat knownReading knownProvided (after Record.empty (earlier ++ run.1)) ∧
        (¬ Recorded knownFormat knownProvided (after Record.empty earlier) →
          OnlyResults (after Record.empty (earlier ++ run.1)))) :=
  ⟨by decide +kernel, certificates_vouched (vouched_of_no_metadata rfl)
    (fun attempt h => by
      rw [(forced_known [100, 9] attempt h).2.2]
      exact knownFormat_reads)
    (fun attempt h => (forced_known [100, 9] attempt h).1) readKnownHex_readsDer
    fun attempt h => (forced_known [100, 9] attempt h).2.1⟩

end Safety
end SymbolBootstrap.CertificateRuns
