import SymbolBootstrap.CertificateService
import SymbolBootstrap.Library.Changes
import SymbolBootstrap.Library.ClassRuns

/-!
`createNodeCertificates.sh`, command by command, on the entries of a certificate folder. It is
run under `set -e`, so that the first command that fails ends it. What openssl does is left
open: only what it documents of the files it reads and writes, and of what it prints, is used.
-/
namespace SymbolBootstrap.CertificateScript

open Library.CaseMapping Library.Changes Library.ClassRuns Library.Records Library.Searching
open Library.Texts Library.Throwing SymbolBootstrap.CertificateService

abbrev Bytes := List UInt8

/-- An entry of the certificate folder. What a directory holds is not looked at. -/
inductive Entry
  | directory
  | file (content : Bytes)
deriving DecidableEq

abbrev Folder := Record Entry

abbrev FolderChange := Change Entry

def Entry.content : Entry → Option Bytes
  | .directory => none
  | .file content => some content

def content (folder : Folder) (name : String) : Option Bytes :=
  (folder.get name).bind Entry.content

inductive Pattern
  | exactly (name : String)
  | beginning (name : String)
  | ending (name : String)

def Pattern.matches : Pattern → String → Bool
  | .exactly name, other => other == name
  | .beginning name, other => name.toList.isPrefixOf other.toList
  -- A `*` at the beginning stands for no hidden name.
  | .ending name, other => endsWith other name && other.toList.head? != some '.'

/-- The calls of openssl in the script. -/
inductive OpenSsl
  | pkey (input output : String)
  | pkeyText (file : String)
  | pkeyPubout (file output : String)
  | selfSign (config key : String) (days : ℕ) (output : String)
  | x509Text (file : String)
  | request (config key output : String)
  | requestText (file : String)
  | ca (config : String) (days : ℕ) (input output : String)
  | verify (caFile file : String)

inductive Command
  | rmFolder (name : String)
  | rmForce (pattern : Pattern)
  | rm (pattern : Pattern)
  | mkdir (name : String)
  | chmod (name : String)
  | touch (name : String)
  | openssl (call : OpenSsl)
  | cat (first second output : String)
  | echo (text : Text)

def OpenSsl.line : OpenSsl → String
  | .pkey input output =>
      "cat " ++ input ++ " | openssl pkey -inform DER -outform PEM -out " ++ output
  | .pkeyText file => "openssl pkey -inform pem -in " ++ file ++ " -text -noout"
  | .pkeyPubout file output => "openssl pkey -in " ++ file ++ " -pubout -out " ++ output
  | .selfSign config key days output =>
      "openssl req -config " ++ config ++ " -keyform PEM -key " ++ key ++ " -new -x509 -days " ++
        toString days ++ " -out " ++ output
  | .x509Text file => "openssl x509 -in " ++ file ++ "  -text -noout"
  | .request config key output =>
      "openssl req -config " ++ config ++ " -key " ++ key ++ " -new -out " ++ output
  | .requestText file => "openssl req  -text -noout -verify -in " ++ file
  | .ca config days input output =>
      "openssl ca -batch -config " ++ config ++ " -days " ++ toString days ++ " -notext -in " ++
        input ++ " -out " ++ output
  | .verify caFile file => "openssl verify -CAfile " ++ caFile ++ " " ++ file

def Pattern.text : Pattern → String
  | .exactly name => name
  | .beginning name => name ++ "*"
  | .ending name => "*" ++ name

def Command.line : Command → String
  | .rmFolder name => "rm -rf " ++ name
  | .rmForce pattern => "rm -f " ++ pattern.text
  | .rm pattern => "rm " ++ pattern.text
  | .mkdir name => "mkdir " ++ name
  | .chmod name => "chmod 700 " ++ name
  | .touch name => "touch " ++ name
  | .openssl call => call.line
  | .cat first second output => "cat " ++ first ++ " " ++ second ++ " > " ++ output
  | .echo text => "echo \"" ++ String.ofList text ++ "\""

def NODE_CERTIFICATE_FILE_NAME : String := "node.crt.pem"
def CA_CERTIFICATE_FILE_NAME : String := "ca.cert.pem"

/-- What is printed at the end. -/
def createdMarker : Text := "Certificate Created".toList

def createCaCertificate (renew : Bool) (caCertificateExpirationInDays : ℕ) : List Command :=
  if renew then [.openssl (.x509Text CA_CERTIFICATE_FILE_NAME)]
  else
    [.openssl (.selfSign "ca.cnf" "ca.key.pem" caCertificateExpirationInDays
      CA_CERTIFICATE_FILE_NAME),
    .openssl (.x509Text CA_CERTIFICATE_FILE_NAME)]

/-- The names that are removed at the end. -/
def cleanUp : List Pattern :=
  [.exactly "createNodeCertificates.sh", .exactly "ca.key.pem", .exactly "ca.der",
    .exactly "node.der", .exactly "node.csr.pem", .ending ".cnf", .beginning "index.txt",
    .beginning "serial.dat"]

def prepare : List Command :=
  [.rmFolder "new_certs", .rmForce (.beginning "index.txt"), .mkdir "new_certs",
    .chmod "new_certs", .touch "index.txt.attr", .touch "index.txt"]

def createCaKey : List Command :=
  [.openssl (.pkey "ca.der" "ca.key.pem"), .openssl (.pkeyText "ca.key.pem"),
    .openssl (.pkeyPubout "ca.key.pem" "ca.pubkey.pem")]

def createNodeCertificate (nodeCertificateExpirationInDays : ℕ) : List Command :=
  [.openssl (.pkey "node.der" "node.key.pem"), .openssl (.pkeyText "node.key.pem"),
    .openssl (.request "node.cnf" "node.key.pem" "node.csr.pem"),
    .openssl (.requestText "node.csr.pem"),
    .openssl (.ca "ca.cnf" nodeCertificateExpirationInDays "node.csr.pem"
      NODE_CERTIFICATE_FILE_NAME),
    .openssl (.verify CA_CERTIFICATE_FILE_NAME NODE_CERTIFICATE_FILE_NAME),
    .cat NODE_CERTIFICATE_FILE_NAME CA_CERTIFICATE_FILE_NAME "node.full.crt.pem"]

def createCertCommands (renew : Bool)
    (caCertificateExpirationInDays nodeCertificateExpirationInDays : ℕ) : List Command :=
  prepare ++ (createCaKey ++ (createCaCertificate renew caCertificateExpirationInDays ++
    (createNodeCertificate nodeCertificateExpirationInDays ++
      (cleanUp.map .rm ++ [.rmFolder "new_certs", .echo createdMarker]))))

/-- The changes made to a folder, and what is printed unless it fails. -/
abbrev Effect := List FolderChange × Except String Text

section Commands

variable (openssl : Folder → OpenSsl → Effect)

/-- `rm`: a directory is left, with an error. -/
def unlink (folder : Folder) (force : Bool) (pattern : Pattern) : Effect :=
  let names := folder.names.filter pattern.matches
  let directories := names.filter fun name => folder.get name = some .directory
  let files := names.filter fun name => folder.get name ≠ some .directory
  (files.map .remove,
    if directories ≠ [] then .error "Is a directory"
    else if files = [] ∧ force = false then .error "No such file or directory"
    else .ok [])

def runCommand (folder : Folder) : Command → Effect
  | .rmFolder name => ((folder.names.filter fun other => other == name).map .remove, .ok [])
  | .rmForce pattern => unlink folder true pattern
  | .rm pattern => unlink folder false pattern
  | .mkdir name =>
      if (folder.get name).isSome then ([], .error "File exists")
      else ([.write name .directory], .ok [])
  | .chmod name =>
      ([], if (folder.get name).isSome then .ok [] else .error "No such file or directory")
  | .touch name =>
      (if (folder.get name).isSome then [] else [.write name (.file [])], .ok [])
  | .openssl call => openssl folder call
  | .cat first second output =>
      -- The shell empties the output before anything is read.
      let emptied := Change.write output (.file [])
      match content (emptied.apply folder) first, content (emptied.apply folder) second with
      | some bytes, some more => ([emptied, .write output (.file (bytes ++ more))], .ok [])
      | _, _ => ([emptied], .error "No such file or directory")
  | .echo text => ([], .ok (text ++ ['\n']))

/-- The commands under `set -e`, with all that they print. -/
def runScript (folder : Folder) : List Command → Effect
  | [] => ([], .ok [])
  | command :: rest =>
    match runCommand openssl folder command with
    | (changes, .error error) => (changes, .error error)
    | (changes, .ok printed) =>
        let (more, result) := runScript (after folder changes) rest
        (changes ++ more, result.map (printed ++ ·))

end Commands

/-- The entries that a call of openssl may change: its output, and what `ca.cnf` names. -/
def OpenSsl.touches : OpenSsl → String → Bool
  | .pkey _ output, name | .pkeyPubout _ output, name | .selfSign _ _ _ output, name
  | .request _ _ output, name => name == output
  | .ca _ _ _ output, name =>
      name == output || name == "new_certs" || (Pattern.beginning "index.txt").matches name ||
        (Pattern.beginning "serial.dat").matches name
  | .pkeyText _, _ | .x509Text _, _ | .requestText _, _ | .verify _ _, _ => false

def Command.touches : Command → String → Bool
  | .rmFolder name, other | .mkdir name, other | .touch name, other => other == name
  | .rmForce pattern, other | .rm pattern, other => pattern.matches other
  | .openssl call, other => call.touches other
  | .cat _ _ output, other => other == output
  | .chmod _, _ | .echo _, _ => false

/-- How the content of a file is understood by openssl, where keys are Ed25519 keys: a private
key, a certificate with the public keys of its subject and its issuer, or a request with the
public key that it is for. What has a name with `priv:` in it is none of these, and `plain` are
the configurations that give no such name. -/
structure Reading where
  privateKey : Bytes → Option Bytes
  publicKey : Bytes → Bytes
  certificate : Bytes → Option (Bytes × Bytes)
  requested : Bytes → Option Bytes
  plain : Bytes → Bool

/-- The bytes before an Ed25519 private key in DER. -/
def ans1 : Bytes :=
  [0x30, 0x2e, 0x02, 0x01, 0x00, 0x30, 0x05, 0x06, 0x03, 0x2b, 0x65, 0x70, 0x04, 0x22, 0x04, 0x20]

def IsDer (bytes : Bytes) : Prop := ans1 <+: bytes

/-- A file with such a content. -/
def FileWith (P : Bytes → Prop) (folder : Folder) (name : String) : Prop :=
  ∃ bytes, content folder name = some bytes ∧ P bytes

/-- No call changes other entries than those that it may. -/
def Touches (openssl : Folder → OpenSsl → Effect) : Prop :=
  ∀ folder call, ∀ change ∈ (openssl folder call).1, call.touches change.name = true

section Documented

variable (reading : Reading)

def privateKeyOf (folder : Folder) (name : String) : Option Bytes :=
  (content folder name).bind reading.privateKey

def certificateOf (folder : Folder) (name : String) : Option (Bytes × Bytes) :=
  (content folder name).bind reading.certificate

def requestedOf (folder : Folder) (name : String) : Option Bytes :=
  (content folder name).bind reading.requested

/-- Whole lines in which no private key begins. -/
structure Lines (text : Text) : Prop where
  free : ¬ fromMarker <:+: text
  ended : text = [] ∨ ∃ front, text = front ++ ['\n']

/-- A key as `pkey -text` prints it. -/
structure PrintedKey (key : Bytes) (text : Text) where
  before : Text
  privateText : Text
  publicText : Text
  text_eq : text = before ++ (fromMarker ++ (privateText ++ (middleMarker ++ publicText)))
  before_lines : Lines before
  privateKey_length : key.length = 32
  publicKey_length : (reading.publicKey key).length = 32
  privateText_block : IsBlock key privateText
  publicText_block : IsBlock (reading.publicKey key) publicText

def IsPlain (bytes : Bytes) : Prop := reading.plain bytes = true

/-- What openssl documents of the calls in the script that succeed, for Ed25519 keys and names
without `priv:`. -/
structure Documented (openssl : Folder → OpenSsl → Effect) : Prop where
  touches : Touches openssl
  pkey : ∀ folder input output changes printed,
    openssl folder (.pkey input output) = (changes, .ok printed) → FileWith IsDer folder input →
      (∃ key, privateKeyOf reading (after folder changes) output = some key) ∧ printed = []
  pkeyText : ∀ folder file changes printed key,
    openssl folder (.pkeyText file) = (changes, .ok printed) →
      privateKeyOf reading folder file = some key → Nonempty (PrintedKey reading key printed)
  pkeyPubout : ∀ folder file output changes printed,
    openssl folder (.pkeyPubout file output) = (changes, .ok printed) → printed = []
  selfSign : ∀ folder config key days output changes printed privateKey,
    openssl folder (.selfSign config key days output) = (changes, .ok printed) →
      privateKeyOf reading folder key = some privateKey →
      FileWith (IsPlain reading) folder config →
        certificateOf reading (after folder changes) output =
          some (reading.publicKey privateKey, reading.publicKey privateKey) ∧ printed = []
  x509There : ∀ folder file changes printed,
    openssl folder (.x509Text file) = (changes, .ok printed) → (content folder file).isSome
  x509Text : ∀ folder file changes printed keys,
    openssl folder (.x509Text file) = (changes, .ok printed) →
      certificateOf reading folder file = some keys →
        ∃ rest, printed = toMarker ++ rest ∧ Lines rest
  request : ∀ folder config key output changes printed privateKey,
    openssl folder (.request config key output) = (changes, .ok printed) →
      privateKeyOf reading folder key = some privateKey →
      FileWith (IsPlain reading) folder config →
        requestedOf reading (after folder changes) output =
          some (reading.publicKey privateKey) ∧ printed = []
  requestText : ∀ folder file changes printed key,
    openssl folder (.requestText file) = (changes, .ok printed) →
      requestedOf reading folder file = some key →
        ∃ rest, printed = toMarker ++ rest ∧ Lines rest
  ca : ∀ folder config days input output changes printed subject issuer authority,
    openssl folder (.ca config days input output) = (changes, .ok printed) →
      requestedOf reading folder input = some subject →
      certificateOf reading folder CA_CERTIFICATE_FILE_NAME = some (issuer, authority) →
        certificateOf reading (after folder changes) output = some (subject, issuer) ∧
          Lines printed
  verify : ∀ folder caFile file changes printed,
    openssl folder (.verify caFile file) = (changes, .ok printed) →
      ¬ fromMarker <:+: (file ++ ": OK").toList → Lines printed

end Documented

section Executed

variable {openssl : Folder → OpenSsl → Effect} {reading : Reading} {folder final : Folder}
  {commands rest : List Command} {printed : Text} {name : String}

variable (openssl) in
/-- The commands succeed one after another. -/
inductive Executed : List Command → Folder → Folder → Text → Prop
  | nil (folder : Folder) : Executed [] folder folder []
  | cons {command : Command} {rest : List Command} {folder final : Folder}
      {changes : List FolderChange} {printed later : Text}
      (hcommand : runCommand openssl folder command = (changes, .ok printed))
      (hrest : Executed rest (after folder changes) final later) :
      Executed (command :: rest) folder final (printed ++ later)

theorem runScript_executed {changes : List FolderChange}
    (h : runScript openssl folder commands = (changes, .ok printed)) :
    Executed openssl commands folder (after folder changes) printed := by
  induction commands generalizing folder changes printed with
  | nil =>
    cases h
    exact .nil folder
  | cons command rest ih =>
    rw [runScript] at h
    rcases hcommand : runCommand openssl folder command with ⟨first, error | out⟩
    · rw [hcommand] at h
      cases h
    · rcases hrest : runScript openssl (after folder first) rest with ⟨more, error | later⟩
      · simp only [hcommand, hrest] at h
        cases h
      · simp only [hcommand, hrest] at h
        cases h
        rw [after_append]
        exact .cons hcommand (ih hrest)

theorem Executed.append (h : Executed openssl (commands ++ rest) folder final printed) :
    ∃ middle first second, Executed openssl commands folder middle first ∧
      Executed openssl rest middle final second ∧ printed = first ++ second := by
  induction commands generalizing folder printed with
  | nil => exact ⟨folder, [], printed, .nil folder, h, rfl⟩
  | cons command commands ih =>
    cases h with
    | cons hcommand hrest =>
      obtain ⟨middle, first, second, hfirst, hsecond, rfl⟩ := ih hrest
      exact ⟨middle, _, second, .cons hcommand hfirst, hsecond, by rw [List.append_assoc]⟩

theorem unlink_touches {force : Bool} {pattern : Pattern} {change : FolderChange}
    (h : change ∈ (unlink folder force pattern).1) : pattern.matches change.name = true := by
  obtain ⟨name, hname, rfl⟩ := List.mem_map.mp h
  exact (List.mem_filter.mp (List.mem_filter.mp hname).1).2

variable (folder) in
theorem runCommand_touches (hssl : Touches openssl) {command : Command}
    {change : FolderChange} (h : change ∈ (runCommand openssl folder command).1) :
    command.touches change.name = true := by
  cases command with
  | rmFolder name =>
    obtain ⟨other, hother, rfl⟩ := List.mem_map.mp h
    exact (List.mem_filter.mp hother).2
  | rmForce pattern => exact unlink_touches h
  | rm pattern => exact unlink_touches h
  | mkdir name =>
    rw [runCommand] at h
    split at h
    · cases h
    · rw [List.mem_singleton.mp h]
      exact beq_self_eq_true name
  | chmod name => cases h
  | touch name =>
    rw [runCommand] at h
    split at h
    · cases h
    · rw [List.mem_singleton.mp h]
      exact beq_self_eq_true name
  | openssl call => exact hssl folder call change h
  | cat first second output =>
    have hname : change.name = output := by
      simp only [runCommand] at h
      split at h
      · rcases List.mem_pair.mp h with rfl | rfl <;> rfl
      · rw [List.mem_singleton.mp h]
        rfl
    rw [hname]
    exact beq_self_eq_true output
  | echo text => cases h

/-- Every change of a script is one that some command of it makes. -/
theorem runScript_touches (hssl : Touches openssl) {change : FolderChange}
    (h : change ∈ (runScript openssl folder commands).1) :
    ∃ command ∈ commands, command.touches change.name = true := by
  induction commands generalizing folder with
  | nil => cases h
  | cons command rest ih =>
    rw [runScript] at h
    rcases hcommand : runCommand openssl folder command with ⟨first, error | out⟩
    · rw [hcommand] at h
      refine ⟨command, List.mem_cons_self, runCommand_touches folder hssl ?_⟩
      rw [hcommand]
      exact h
    · rw [hcommand] at h
      rcases List.mem_append.mp h with hfirst | hmore
      · refine ⟨command, List.mem_cons_self, runCommand_touches folder hssl ?_⟩
        rw [hcommand]
        exact hfirst
      · obtain ⟨other, hother, htouches⟩ := ih hmore
        exact ⟨other, List.mem_cons_of_mem command hother, htouches⟩

theorem get_after_command (hssl : Touches openssl) {command : Command}
    {changes : List FolderChange} {out : Text}
    (h : runCommand openssl folder command = (changes, .ok out))
    (hname : command.touches name = false) :
    (after folder changes).get name = folder.get name := by
  refine get_after_other fun change hchange heq => ?_
  have htouches : command.touches change.name = true := by
    refine runCommand_touches folder hssl ?_
    rw [h]
    exact hchange
  rw [heq, hname] at htouches
  cases htouches

theorem Executed.untouched (hssl : Touches openssl)
    (h : Executed openssl commands folder final printed)
    (hname : commands.any (·.touches name) = false) : final.get name = folder.get name := by
  induction h with
  | nil folder => rfl
  | cons hcommand hrest ih =>
    rw [List.any_cons, Bool.or_eq_false_iff] at hname
    rw [ih hname.2]
    exact get_after_command hssl hcommand hname.1

/-- What `rm` leaves. -/
theorem unlink_ok {force : Bool} {pattern : Pattern} {changes : List FolderChange} {out : Text}
    (h : unlink folder force pattern = (changes, .ok out)) :
    out = [] ∧ ∀ name, (after folder changes).get name =
      if pattern.matches name = true then none else folder.get name := by
  rw [unlink, Prod.mk.injEq] at h
  obtain ⟨rfl, hresult⟩ := h
  split at hresult
  · cases hresult
  · rename_i hdirectories
    rw [ne_eq, not_not, List.filter_eq_nil_iff] at hdirectories
    constructor
    · split at hresult
      · cases hresult
      · exact (Except.ok.inj hresult).symm
    · intro name
      rw [get_after_removed]
      by_cases hmatches : pattern.matches name = true
      · rw [if_pos hmatches, ite_eq_left_iff]
        intro hname
        cases hget : folder.get name with
        | none => rfl
        | some entry =>
          have hfound : name ∈ folder.names.filter pattern.matches :=
            List.mem_filter.mpr ⟨Record.mem_names_iff.mpr ⟨entry, hget⟩, hmatches⟩
          refine absurd (List.mem_filter.mpr ⟨hfound, ?_⟩) hname
          simpa using hdirectories name hfound
      · rw [if_neg hmatches, if_neg]
        intro hname
        exact hmatches (List.mem_filter.mp (List.mem_filter.mp hname).1).2

variable (folder) in
/-- What `rm -rf` leaves. -/
theorem get_after_rmFolder (name other : String) :
    (after folder ((folder.names.filter fun other => other == name).map .remove)).get other =
      if other = name then none else folder.get other := by
  rw [get_after_removed]
  by_cases hname : other = name
  · rw [if_pos hname, ite_eq_left_iff]
    intro hother
    refine Option.eq_none_iff_forall_ne_some.mpr fun entry hget => hother ?_
    exact List.mem_filter.mpr ⟨Record.mem_names_iff.mpr ⟨entry, hget⟩, beq_iff_eq.mpr hname⟩
  · rw [if_neg hname, if_neg]
    intro hother
    exact hname (beq_iff_eq.mp (List.mem_filter.mp hother).2)

theorem executed_cons {command : Command}
    (h : Executed openssl (command :: rest) folder final printed) :
    ∃ changes first later, runCommand openssl folder command = (changes, .ok first) ∧
      Executed openssl rest (after folder changes) final later ∧ printed = first ++ later := by
  cases h with
  | cons hcommand hrest => exact ⟨_, _, _, hcommand, hrest, rfl⟩

theorem executed_rm {patterns : List Pattern}
    (h : Executed openssl (patterns.map .rm) folder final printed) :
    printed = [] ∧ ∀ name, final.get name =
      if patterns.any (·.matches name) = true then none else folder.get name := by
  induction patterns generalizing folder printed with
  | nil =>
    cases h
    exact ⟨rfl, fun name => rfl⟩
  | cons pattern patterns ih =>
    obtain ⟨changes, first, later, hcommand, hrest, rfl⟩ := executed_cons h
    obtain ⟨rfl, hfirst⟩ := unlink_ok hcommand
    obtain ⟨rfl, hlater⟩ := ih hrest
    refine ⟨rfl, fun name => ?_⟩
    rw [hlater, hfirst, List.any_cons]
    cases pattern.matches name <;> simp

theorem content_congr (h : final.get name = folder.get name) :
    content final name = content folder name := by
  rw [content, content, h]

/-- The clean up and the last two commands. -/
theorem executed_cleanUp
    (h : Executed openssl (cleanUp.map .rm ++ [.rmFolder "new_certs", .echo createdMarker])
      folder final printed) :
    printed = createdMarker ++ ['\n'] ∧ ∀ name, final.get name =
      if name = "new_certs" ∨ cleanUp.any (·.matches name) = true then none
      else folder.get name := by
  obtain ⟨middle, first, second, hclean, hlast, rfl⟩ := h.append
  obtain ⟨rfl, hget⟩ := executed_rm hclean
  obtain ⟨changes, _, _, hfolder, hecho, rfl⟩ := executed_cons hlast
  obtain ⟨_, _, _, hcommand, hnil, rfl⟩ := executed_cons hecho
  cases hnil
  cases hcommand
  cases hfolder
  refine ⟨by simp, fun name => ?_⟩
  have hfinal := get_after_rmFolder middle "new_certs" name
  rw [hget] at hfinal
  rw [show ∀ folder : Folder, after folder [] = folder from fun _ => rfl, hfinal]
  by_cases hname : name = "new_certs"
  · rw [if_pos hname, if_pos (.inl hname)]
  · rw [if_neg hname]
    simp only [hname, false_or]

end Executed

section Printed

variable {reading : Reading}

theorem Lines.append {text rest : Text} (htext : Lines text) (hrest : Lines rest) :
    Lines (text ++ rest) := by
  constructor
  · rcases htext.ended with rfl | ⟨front, rfl⟩
    · exact hrest.free
    · intro h
      rw [List.append_assoc, List.singleton_append] at h
      have hword : ∀ c ∈ fromMarker, (c != '\n') = true := List.all_eq_true.mp (by decide)
      rcases infix_append_cons hword rfl h with hfront | hback
      · exact htext.free (List.infix_append_of_infix_left hfront)
      · exact hrest.free hback
  · rcases hrest.ended with rfl | ⟨back, rfl⟩
    · rw [List.append_nil]
      exact htext.ended
    · exact .inr ⟨text ++ back, by rw [List.append_assoc]⟩

theorem lines_created : Lines (createdMarker ++ ['\n']) :=
  ⟨by decide, .inr ⟨createdMarker, rfl⟩⟩

/-- The key pair of a private key, as `getCertificates` writes it. -/
def keyPair (reading : Reading) (key : Bytes) : CertificatePair :=
  ⟨key.flatMap hexUpper, (reading.publicKey key).flatMap hexUpper⟩

/-- A printed key with what follows it. -/
def PrintedKey.followed {key : Bytes} {text : Text} (p : PrintedKey reading key text)
    (other : Text) (hfree : ¬ fromMarker <:+: other) : PrintedPair where
  privateKey := key
  publicKey := reading.publicKey key
  privateText := p.privateText
  publicText := p.publicText
  other := other
  privateKey_length := p.privateKey_length
  publicKey_length := p.publicKey_length
  privateText_block := p.privateText_block
  publicText_block := p.publicText_block
  other_free := hfree

theorem PrintedKey.followed_text {key : Bytes} {text : Text} (p : PrintedKey reading key text)
    {other : Text} (hfree : ¬ fromMarker <:+: other) (rest : Text) :
    text ++ (toMarker ++ (other ++ rest)) =
      p.before ++ ((p.followed other hfree).text ++ rest) := by
  rw [PrintedPair.text, PrintedKey.followed]
  conv_lhs => rw [p.text_eq]
  simp only [List.append_assoc]

/-- The two keys that the script prints are the two that are read. -/
theorem getCertificates_printed {caKey nodeKey : Bytes} {caText nodeText caRest nodeRest : Text}
    (hca : PrintedKey reading caKey caText) (hnode : PrintedKey reading nodeKey nodeText)
    (hcaRest : Lines caRest) (hnodeRest : Lines nodeRest) :
    getCertificates (caText ++ (toMarker ++ (caRest ++ (nodeText ++ (toMarker ++ nodeRest))))) =
      .ok [keyPair reading caKey, keyPair reading nodeKey] := by
  have hbetween := (hcaRest.append hnode.before_lines).free
  have hlast := hnode.followed_text hnodeRest.free []
  rw [List.append_nil, List.append_nil] at hlast
  have hall := hca.followed_text hbetween (hnode.followed nodeRest hnodeRest.free).text
  rw [List.append_assoc] at hall
  rw [hlast, hall]
  have hlocations := locations_pairs
    [hca.followed _ hbetween, hnode.followed _ hnodeRest.free] [] hca.before_lines.free
  rw [List.nil_append, List.length_nil, List.flatMap_cons, List.flatMap_cons, List.flatMap_nil,
    List.append_nil] at hlocations
  rw [getCertificates, mapM_ok]
  change List.Forall₂ _ _ (List.map PrintedPair.pair [hca.followed _ hbetween,
    hnode.followed _ hnodeRest.free])
  rw [List.forall₂_map_right_iff]
  refine hlocations.imp ?_
  rintro index p ⟨rest, hrest⟩
  exact p.certificateAt hrest

end Printed

section Segments

variable {openssl : Folder → OpenSsl → Effect} {reading : Reading} {folder final : Folder}
  {printed : Text} {name : String}

theorem privateKeyOf_congr (h : final.get name = folder.get name) :
    privateKeyOf reading final name = privateKeyOf reading folder name := by
  rw [privateKeyOf, privateKeyOf, content_congr h]

theorem certificateOf_congr (h : final.get name = folder.get name) :
    certificateOf reading final name = certificateOf reading folder name := by
  rw [certificateOf, certificateOf, content_congr h]

theorem requestedOf_congr (h : final.get name = folder.get name) :
    requestedOf reading final name = requestedOf reading folder name := by
  rw [requestedOf, requestedOf, content_congr h]

/-- The commands that print nothing. -/
def silent : Command → Bool
  | .openssl _ | .echo _ => false
  | _ => true

theorem runCommand_silent {command : Command} {changes : List FolderChange}
    (h : runCommand openssl folder command = (changes, .ok printed))
    (hsilent : silent command = true) : printed = [] := by
  cases command with
  | rmFolder name => cases h; rfl
  | rmForce pattern => exact (unlink_ok h).1
  | rm pattern => exact (unlink_ok h).1
  | mkdir name =>
    rw [runCommand] at h
    split at h
    · cases h
    · cases h
      rfl
  | chmod name =>
    rw [runCommand, Prod.mk.injEq] at h
    obtain ⟨-, hresult⟩ := h
    split at hresult
    · cases hresult
      rfl
    · cases hresult
  | touch name => cases h; rfl
  | cat first second output =>
    simp only [runCommand] at h
    split at h
    · cases h
      rfl
    · cases h
  | openssl call => cases hsilent
  | echo text => cases hsilent

theorem executed_silent {commands : List Command}
    (h : Executed openssl commands folder final printed)
    (hsilent : ∀ command ∈ commands, silent command = true) : printed = [] := by
  induction h with
  | nil folder => rfl
  | cons hcommand hrest ih =>
    rw [runCommand_silent hcommand (hsilent _ List.mem_cons_self),
      ih fun command hmem => hsilent command (List.mem_cons_of_mem _ hmem)]
    rfl

theorem FileWith.congr {P : Bytes → Prop} (hfile : FileWith P folder name)
    (h : final.get name = folder.get name) : FileWith P final name := by
  rw [FileWith, content_congr h]
  exact hfile

theorem executed_createCaKey (hssl : Documented reading openssl)
    (hder : FileWith IsDer folder "ca.der")
    (h : Executed openssl createCaKey folder final printed) :
    ∃ key, privateKeyOf reading final "ca.key.pem" = some key ∧
      Nonempty (PrintedKey reading key printed) := by
  obtain ⟨first, _, _, hpkey, h₁, rfl⟩ := executed_cons h
  obtain ⟨second, text, _, htext, h₂, rfl⟩ := executed_cons h₁
  obtain ⟨third, _, _, hpubout, h₃, rfl⟩ := executed_cons h₂
  cases h₃
  obtain ⟨⟨key, hkey⟩, rfl⟩ := hssl.pkey _ _ _ _ _ hpkey hder
  have hprinted := hssl.pkeyText _ _ _ _ key htext hkey
  obtain rfl := hssl.pkeyPubout _ _ _ _ _ hpubout
  refine ⟨key, ?_, by simpa using hprinted⟩
  rw [privateKeyOf_congr (get_after_command hssl.touches hpubout rfl),
    privateKeyOf_congr (get_after_command hssl.touches htext rfl), hkey]

/-- A new CA certificate is for the CA key. -/
theorem executed_createCaCertificate (hssl : Documented reading openssl) {days : ℕ} {key : Bytes}
    (hkey : privateKeyOf reading folder "ca.key.pem" = some key)
    (hplain : FileWith (IsPlain reading) folder "ca.cnf")
    (h : Executed openssl (createCaCertificate false days) folder final printed) :
    certificateOf reading final CA_CERTIFICATE_FILE_NAME =
        some (reading.publicKey key, reading.publicKey key) ∧
      ∃ rest, printed = toMarker ++ rest ∧ Lines rest := by
  obtain ⟨first, _, _, hsign, h₁, rfl⟩ := executed_cons h
  obtain ⟨second, _, _, htext, h₂, rfl⟩ := executed_cons h₁
  cases h₂
  obtain ⟨hcertificate, rfl⟩ := hssl.selfSign _ _ _ _ _ _ _ key hsign hkey hplain
  constructor
  · rw [certificateOf_congr (get_after_command hssl.touches htext rfl), hcertificate]
  · rw [List.nil_append, List.append_nil]
    exact hssl.x509Text _ _ _ _ _ htext hcertificate

/-- The CA certificate can be read, where a renewal finds one. -/
def AuthorityRead (reading : Reading) (folder : Folder) : Prop :=
  (folder.get CA_CERTIFICATE_FILE_NAME).isSome →
    ∃ keys, certificateOf reading folder CA_CERTIFICATE_FILE_NAME = some keys

theorem AuthorityRead.congr (hread : AuthorityRead reading folder)
    (h : final.get CA_CERTIFICATE_FILE_NAME = folder.get CA_CERTIFICATE_FILE_NAME) :
    AuthorityRead reading final := by
  intro hsome
  rw [h] at hsome
  rw [certificateOf_congr h]
  exact hread hsome

theorem executed_printCaCertificate (hssl : Documented reading openssl) {days : ℕ}
    (hread : AuthorityRead reading folder)
    (h : Executed openssl (createCaCertificate true days) folder final printed) :
    final.get CA_CERTIFICATE_FILE_NAME = folder.get CA_CERTIFICATE_FILE_NAME ∧
      (∃ keys, certificateOf reading final CA_CERTIFICATE_FILE_NAME = some keys) ∧
      ∃ rest, printed = toMarker ++ rest ∧ Lines rest := by
  obtain ⟨first, _, _, htext, h₁, rfl⟩ := executed_cons h
  cases h₁
  rw [List.append_nil]
  have hsame : (after folder first).get CA_CERTIFICATE_FILE_NAME =
      folder.get CA_CERTIFICATE_FILE_NAME := get_after_command hssl.touches htext rfl
  have hthere := hssl.x509There _ _ _ _ htext
  obtain ⟨keys, hkeys⟩ := hread (Option.isSome_of_isSome_bind hthere)
  exact ⟨hsame, ⟨keys, (certificateOf_congr hsame).trans hkeys⟩,
    hssl.x509Text _ _ _ _ keys htext hkeys⟩

/-- The node certificate is for the node key, and the subject of the CA certificate issued it. -/
theorem executed_createNodeCertificate (hssl : Documented reading openssl) {days : ℕ}
    (hder : FileWith IsDer folder "node.der")
    (hplain : FileWith (IsPlain reading) folder "node.cnf") {issuer authority : Bytes}
    (hauthority : certificateOf reading folder CA_CERTIFICATE_FILE_NAME = some (issuer, authority))
    (h : Executed openssl (createNodeCertificate days) folder final printed) :
    ∃ key, privateKeyOf reading final "node.key.pem" = some key ∧
      certificateOf reading final NODE_CERTIFICATE_FILE_NAME =
        some (reading.publicKey key, issuer) ∧
      ∃ text rest, printed = text ++ (toMarker ++ rest) ∧ Lines rest ∧
        Nonempty (PrintedKey reading key text) := by
  obtain ⟨_, _, _, hpkey, h₁, rfl⟩ := executed_cons h
  obtain ⟨_, text, _, htext, h₂, rfl⟩ := executed_cons h₁
  obtain ⟨_, _, _, hrequest, h₃, rfl⟩ := executed_cons h₂
  obtain ⟨_, _, _, hrequestText, h₄, rfl⟩ := executed_cons h₃
  obtain ⟨_, signed, _, hca, h₅, rfl⟩ := executed_cons h₄
  obtain ⟨_, verified, _, hverify, h₆, rfl⟩ := executed_cons h₅
  obtain ⟨_, _, _, hcat, h₇, rfl⟩ := executed_cons h₆
  cases h₇
  obtain ⟨⟨key, hkey⟩, rfl⟩ := hssl.pkey _ _ _ _ _ hpkey hder
  have hprinted := hssl.pkeyText _ _ _ _ key htext hkey
  have hkeyThere := (privateKeyOf_congr (get_after_command hssl.touches htext rfl)).trans hkey
  have hplainThere := (hplain.congr (get_after_command hssl.touches hpkey rfl)).congr
    (get_after_command hssl.touches htext rfl)
  obtain ⟨hrequested, rfl⟩ := hssl.request _ _ _ _ _ _ key hrequest hkeyThere hplainThere
  obtain ⟨rest, rfl, hrest⟩ := hssl.requestText _ _ _ _ _ hrequestText hrequested
  have hsubject :=
    (requestedOf_congr (get_after_command hssl.touches hrequestText rfl)).trans hrequested
  rw [← certificateOf_congr (get_after_command hssl.touches hpkey rfl),
    ← certificateOf_congr (get_after_command hssl.touches htext rfl),
    ← certificateOf_congr (get_after_command hssl.touches hrequest rfl),
    ← certificateOf_congr (get_after_command hssl.touches hrequestText rfl)] at hauthority
  obtain ⟨hcertificate, hsigned⟩ := hssl.ca _ _ _ _ _ _ _ _ _ _ hca hsubject hauthority
  have hverified := hssl.verify _ _ _ _ _ hverify (by decide)
  obtain rfl := runCommand_silent hcat rfl
  refine ⟨key, ?_, ?_, text, rest ++ (signed ++ verified), ?_, ?_, hprinted⟩
  · rw [privateKeyOf_congr (get_after_command hssl.touches hcat rfl),
      privateKeyOf_congr (get_after_command hssl.touches hverify rfl),
      privateKeyOf_congr (get_after_command hssl.touches hca rfl),
      privateKeyOf_congr (get_after_command hssl.touches hrequestText rfl),
      privateKeyOf_congr (get_after_command hssl.touches hrequest rfl), hkeyThere]
  · rw [certificateOf_congr (get_after_command hssl.touches hcat rfl),
      certificateOf_congr (get_after_command hssl.touches hverify rfl), hcertificate]
  · simp only [List.nil_append, List.append_nil, List.append_assoc]
  · exact hrest.append (hsigned.append hverified)

/-- The entries that the script removes in the end. -/
def cleaned (name : String) : Bool := name == "new_certs" || cleanUp.any (·.matches name)

/-- The files that the script is run for. -/
def results : List String :=
  [CA_CERTIFICATE_FILE_NAME, "ca.pubkey.pem", NODE_CERTIFICATE_FILE_NAME, "node.full.crt.pem",
    "node.key.pem"]

/-- What the script leaves. -/
structure Certified (reading : Reading) (renew : Bool) (folder final : Folder)
    (caKey nodeKey : Bytes) : Prop where
  created : renew = false → certificateOf reading final CA_CERTIFICATE_FILE_NAME =
    some (reading.publicKey caKey, reading.publicKey caKey)
  kept : renew = true →
    final.get CA_CERTIFICATE_FILE_NAME = folder.get CA_CERTIFICATE_FILE_NAME
  nodeKeyFile : privateKeyOf reading final "node.key.pem" = some nodeKey
  node : ∃ issuer authority,
    certificateOf reading final CA_CERTIFICATE_FILE_NAME = some (issuer, authority) ∧
    certificateOf reading final NODE_CERTIFICATE_FILE_NAME =
      some (reading.publicKey nodeKey, issuer)
  clean : ∀ name, cleaned name = true → final.get name = none

/-- What the script is given. -/
structure Inputs (reading : Reading) (renew : Bool) (folder : Folder) : Prop where
  caKey : FileWith IsDer folder "ca.der"
  nodeKey : FileWith IsDer folder "node.der"
  caConfiguration : FileWith (IsPlain reading) folder "ca.cnf"
  nodeConfiguration : FileWith (IsPlain reading) folder "node.cnf"
  authority : renew = true → AuthorityRead reading folder

/-- The CA certificate that is created or kept. -/
theorem executed_authority (hssl : Documented reading openssl) {renew : Bool} {days : ℕ}
    {key : Bytes} (hkey : privateKeyOf reading folder "ca.key.pem" = some key)
    (hplain : FileWith (IsPlain reading) folder "ca.cnf")
    (hread : renew = true → AuthorityRead reading folder)
    (h : Executed openssl (createCaCertificate renew days) folder final printed) :
    (renew = false → certificateOf reading final CA_CERTIFICATE_FILE_NAME =
      some (reading.publicKey key, reading.publicKey key)) ∧
    (renew = true →
      final.get CA_CERTIFICATE_FILE_NAME = folder.get CA_CERTIFICATE_FILE_NAME) ∧
    (∃ keys, certificateOf reading final CA_CERTIFICATE_FILE_NAME = some keys) ∧
    ∃ rest, printed = toMarker ++ rest ∧ Lines rest := by
  cases renew with
  | false =>
    obtain ⟨hcertificate, hprinted⟩ := executed_createCaCertificate hssl hkey hplain h
    exact ⟨fun _ => hcertificate, fun hrenew => Bool.noConfusion hrenew, ⟨_, hcertificate⟩,
      hprinted⟩
  | true =>
    obtain ⟨hsame, hkeys, hprinted⟩ := executed_printCaCertificate hssl (hread rfl) h
    exact ⟨fun hrenew => Bool.noConfusion hrenew, fun _ => hsame, hkeys, hprinted⟩

theorem executed_script (hssl : Documented reading openssl) {renew : Bool} {caDays nodeDays : ℕ}
    (hinputs : Inputs reading renew folder)
    (h : Executed openssl (createCertCommands renew caDays nodeDays) folder final printed) :
    ∃ caKey nodeKey,
      getCertificates printed = .ok [keyPair reading caKey, keyPair reading nodeKey] ∧
        Certified reading renew folder final caKey nodeKey := by
  obtain ⟨prepared, _, _, hprepare, h₁, rfl⟩ := h.append
  obtain ⟨keyed, caText, _, hcaKey, h₂, rfl⟩ := h₁.append
  obtain ⟨authorised, authorityText, _, hauthority, h₃, rfl⟩ := h₂.append
  obtain ⟨signed, _, _, hnode, hcleanUp, rfl⟩ := h₃.append
  obtain rfl := executed_silent hprepare (by decide)
  have hkeyed : ∀ name, (prepare ++ createCaKey).any (·.touches name) = false →
      keyed.get name = folder.get name := by
    intro name hname
    rw [List.any_append, Bool.or_eq_false_iff] at hname
    rw [hcaKey.untouched hssl.touches hname.2, hprepare.untouched hssl.touches hname.1]
  have hauthorised : ∀ name, (createCaCertificate renew caDays).any (·.touches name) = false →
      authorised.get name = keyed.get name :=
    fun name hname => hauthority.untouched hssl.touches hname
  obtain ⟨caKey, hcaKeyFile, ⟨hcaPrinted⟩⟩ := executed_createCaKey hssl
    (hinputs.caKey.congr (hprepare.untouched hssl.touches rfl)) hcaKey
  have hread : renew = true → AuthorityRead reading keyed :=
    fun hrenew => (hinputs.authority hrenew).congr (hkeyed _ rfl)
  obtain ⟨hcreated, hkept, ⟨⟨issuer, authority⟩, hissuer⟩, caRest, rfl, hcaRest⟩ :=
    executed_authority hssl hcaKeyFile (hinputs.caConfiguration.congr (hkeyed _ rfl)) hread
      hauthority
  have hnodeKeyFile : authorised.get "node.der" = folder.get "node.der" :=
    (hauthorised _ (by cases renew <;> rfl)).trans (hkeyed _ rfl)
  have hnodeConfig : authorised.get "node.cnf" = folder.get "node.cnf" :=
    (hauthorised _ (by cases renew <;> rfl)).trans (hkeyed _ rfl)
  obtain ⟨nodeKey, hnodeKey, hsubject, nodeText, nodeRest, rfl, hnodeRest, ⟨hnodePrinted⟩⟩ :=
    executed_createNodeCertificate hssl (hinputs.nodeKey.congr hnodeKeyFile)
      (hinputs.nodeConfiguration.congr hnodeConfig) hissuer hnode
  obtain ⟨rfl, hget⟩ := executed_cleanUp hcleanUp
  have hstays : ∀ name, cleaned name = false → final.get name = signed.get name := by
    intro name hname
    rw [cleaned, Bool.or_eq_false_iff, beq_eq_false_iff_ne] at hname
    rw [hget, if_neg]
    rw [not_or, Bool.not_eq_true]
    exact hname
  have hca : final.get CA_CERTIFICATE_FILE_NAME = authorised.get CA_CERTIFICATE_FILE_NAME := by
    rw [hstays _ (by decide)]
    exact hnode.untouched hssl.touches rfl
  have hresult : Certified reading renew folder final caKey nodeKey := by
    constructor
    · intro hrenew
      rw [certificateOf_congr hca, hcreated hrenew]
    · intro hrenew
      rw [hca, hkept hrenew, hkeyed _ rfl]
    · rw [privateKeyOf_congr (hstays _ (by decide)), hnodeKey]
    · refine ⟨issuer, authority, ?_, ?_⟩
      · rw [certificateOf_congr hca, hissuer]
      · rw [certificateOf_congr (hstays _ (by decide)), hsubject]
    · intro name hname
      rw [cleaned, Bool.or_eq_true, beq_iff_eq] at hname
      rw [hget, if_pos hname]
  refine ⟨caKey, nodeKey, ?_, hresult⟩
  have hprinted := getCertificates_printed hcaPrinted hnodePrinted hcaRest
    (hnodeRest.append lines_created)
  rw [← hprinted]
  simp only [List.nil_append, List.append_assoc]

/-- What the script may touch: results, and what it removes in the end. -/
theorem touches_createCertCommands {renew : Bool} {caDays nodeDays : ℕ}
    (h : (createCertCommands renew caDays nodeDays).any (·.touches name) = true) :
    name ∈ results ∨ cleaned name = true := by
  have hindex : name = "index.txt.attr" ∨ name = "index.txt" →
      "index.txt".toList.isPrefixOf name.toList = true := by
    rintro (rfl | rfl) <;> decide
  cases renew <;>
    simp only [createCertCommands, prepare, createCaKey, createCaCertificate,
      createNodeCertificate, cleanUp, List.any_append, List.any_cons, List.any_nil, List.map_cons,
      List.map_nil, Command.touches, OpenSsl.touches, Bool.or_eq_true, beq_iff_eq, results, cleaned,
      List.mem_cons, Pattern.matches, Bool.false_eq_true, if_true, if_false, or_false,
      List.not_mem_nil, false_or] at h ⊢ <;>
    grind

end Segments
end SymbolBootstrap.CertificateScript
