import SymbolBootstrap.Library.Texts
import SymbolBootstrap.Library.Throwing

/-!
The report of a properties file: its sections with their lines. The patterns of the code
take the first bracketed word of a line as a header, and the last equals sign of a line as
the one that divides it, so what a value holds can decide how its line is read.
-/
namespace SymbolBootstrap.ReportService

open Library.Texts Library.Throwing

structure Descriptor where
  hidden : Option Bool
  description : Option String
  type : Option String
deriving DecidableEq

structure ReportLine where
  property : Text
  value : Text
  hidden : Bool
  description : String
  type : String
deriving DecidableEq

structure ReportSection where
  header : Text
  lines : List ReportLine
deriving DecidableEq

/-- What `[\w\s\.:]` matches. -/
def isHeaderChar (c : Char) : Bool :=
  c.isAlphanum || c == '_' || isWhitespace c || c == '.' || c == ':'

/-- A bracketed word that begins after the bracket. -/
def execWord (rest : Text) : Option Text :=
  let word := rest.takeWhile isHeaderChar
  if word ≠ [] ∧ (rest.dropWhile isHeaderChar).head? = some ']' then some word else none

/-- The group of `/\[([\w\s\.:]+)]/.exec(l)`. -/
def execHeader : Text → Option Text
  | [] => none
  | c :: rest => if c = '[' then (execWord rest).or (execHeader rest) else execHeader rest

/-- The parts around the last equals sign. -/
def lastEquals : Text → Option (Text × Text)
  | [] => none
  | c :: rest =>
      match lastEquals rest with
      | some (before, after) => some (c :: before, after)
      | none => if c = '=' then some ([], rest) else none

/-- The groups of `/(.*)=(.*)/.exec(l)`: a dot does not reach over the end of a line. -/
def execProperty (l : Text) : Option (Text × Text) :=
  (l.splitOnP isLineTerminator).findSome? lastEquals

/-- `value.replace(/./g, '*')`. -/
def hide (value : Text) : Text :=
  value.flatMap fun c => if isLineTerminator c then [c] else List.replicate (codeUnits c) '*'

def contentLines (resourceContent : Text) : List Text :=
  ((splitLines (trim resourceContent)).map trim).filter fun l =>
    !l.isEmpty && l.head? ≠ some '#'

variable (descriptions : Text → Option Descriptor)

def hidden (propertyName : Text) : Bool :=
  ((descriptions propertyName).bind fun descriptor => descriptor.hidden).getD false

def reportLine (propertyName value : Text) : ReportLine where
  property := propertyName
  value := if hidden descriptions propertyName then hide value else value
  hidden := hidden descriptions propertyName
  description := ((descriptions propertyName).bind fun descriptor => descriptor.description).getD ""
  type := ((descriptions propertyName).bind fun descriptor => descriptor.type).getD ""

def addLine (sections : List ReportSection) (l : Text) : Except String (List ReportSection) :=
  match execHeader l with
  | some header => return sections ++ [⟨header, []⟩]
  | none =>
    match execProperty l with
    | none => return sections
    | some (name, value) =>
      if name.isEmpty then return sections
      else
        match sections.getLast? with
        | none => throw ("Invalid line '" ++ String.ofList l ++ "'. No section could be found!")
        | some last =>
          return sections.dropLast ++
            [{ last with
              lines := last.lines ++ [reportLine descriptions (trim name) (trim value)] }]

def createReportFromFile (resourceContent : Text) : Except String (List ReportSection) :=
  (contentLines resourceContent).foldlM (addLine descriptions) []

/-- The letters of the names of sections. -/
def isNameChar (c : Char) : Bool := c.isAlphanum || c == '_' || c == ' ' || c == '.' || c == ':'

/-- A line `key = value` of a properties file. -/
structure Property where
  key : Text
  value : Text
  key_ne_nil : key ≠ []
  key_trimmed : Trimmed key
  key_single : SingleLine key
  key_equals : '=' ∉ key
  key_bracket : '[' ∉ key
  key_comment : key.head? ≠ some '#'
  value_trimmed : Trimmed value
  value_single : SingleLine value

structure PropertiesSection where
  name : Text
  properties : List Property
  name_ne_nil : name ≠ []
  name_chars : ∀ c ∈ name, isNameChar c = true

/-- The written line, without the white space after an empty value. -/
def Property.line (p : Property) : Text := trimEnd (p.key ++ [' ', '=', ' '] ++ p.value)

def PropertiesSection.lines (s : PropertiesSection) : List Text :=
  ('[' :: (s.name ++ [']'])) :: s.properties.map Property.line

/-- What a report of the sections is to hold. -/
def report (sections : List PropertiesSection) : List ReportSection :=
  sections.map fun s => ⟨s.name, s.properties.map fun p =>
    { reportLine descriptions p.key p.value with
      value := if hidden descriptions p.key then List.replicate (utf16Length p.value) '*'
        else p.value }⟩

/-- A word of the letters of a header between brackets. -/
def Bracketed (text : Text) : Prop :=
  ∃ before word after, text = before ++ '[' :: (word ++ ']' :: after) ∧ word ≠ [] ∧
    ∀ c ∈ word, isHeaderChar c = true

section Patterns

theorem execWord_bracket {word : Text} (hne : word ≠ [])
    (hword : ∀ c ∈ word, isHeaderChar c = true) (after : Text) :
    execWord (word ++ ']' :: after) = some word := by
  have htake : (word ++ ']' :: after).takeWhile isHeaderChar = word := by
    rw [List.takeWhile_append_of_pos hword, List.takeWhile_cons_of_neg (by decide),
      List.append_nil]
  have hdrop : (word ++ ']' :: after).dropWhile isHeaderChar = ']' :: after := by
    rw [List.dropWhile_append_of_pos hword, List.dropWhile_cons_of_neg (by decide)]
  rw [execWord, htake, hdrop]
  exact if_pos ⟨hne, rfl⟩

theorem execWord_ne_none {rest : Text} (h : execWord rest ≠ none) :
    ∃ word after, rest = word ++ ']' :: after ∧ word ≠ [] ∧ ∀ c ∈ word, isHeaderChar c = true := by
  unfold execWord at h
  simp only [ne_eq, ite_eq_right_iff, reduceCtorEq, imp_false, not_not] at h
  obtain ⟨hne, hbracket⟩ := h
  obtain ⟨after, hafter⟩ := List.head?_eq_some_iff.mp hbracket
  refine ⟨_, after, ?_, hne, fun c hc => List.mem_takeWhile_imp hc⟩
  rw [← hafter, List.takeWhile_append_dropWhile]

/-- The pattern of a header finds nothing exactly when there is no bracketed word. -/
theorem execHeader_eq_none_iff {text : Text} : execHeader text = none ↔ ¬ Bracketed text := by
  induction text with
  | nil => exact ⟨fun _ ⟨before, _, _, h, _⟩ => by simp at h, fun _ => rfl⟩
  | cons c rest ih =>
    have hrest : Bracketed rest → Bracketed (c :: rest) := by
      rintro ⟨before, word, after, rfl, hword⟩
      exact ⟨c :: before, word, after, rfl, hword⟩
    rw [execHeader]
    by_cases hc : c = '['
    · subst hc
      rw [if_pos rfl, Option.or_eq_none_iff, ih]
      constructor
      · rintro ⟨hhere, hlater⟩ ⟨before, word, after, heq, hne, hword⟩
        cases before with
        | nil =>
          obtain ⟨-, rfl⟩ := List.cons.inj heq
          rw [execWord_bracket hne hword] at hhere
          cases hhere
        | cons c' before =>
          exact hlater ⟨before, word, after, (List.cons.inj heq).2, hne, hword⟩
      · intro hno
        refine ⟨?_, fun h => hno (hrest h)⟩
        by_contra hhere
        obtain ⟨word, after, rfl, hword⟩ := execWord_ne_none hhere
        exact hno ⟨[], word, after, rfl, hword⟩
    · rw [if_neg hc, ih]
      constructor
      · rintro hlater ⟨before, word, after, heq, hword⟩
        cases before with
        | nil => exact hc (List.cons.inj heq).1
        | cons c' before => exact hlater ⟨before, word, after, (List.cons.inj heq).2, hword⟩
      · exact fun hno h => hno (hrest h)

/-- Without a bracket before it, a text has a bracketed word where its end has one. -/
theorem bracketed_append {before text : Text} (h : '[' ∉ before) :
    Bracketed (before ++ text) ↔ Bracketed text := by
  induction before with
  | nil => rfl
  | cons c rest ih =>
    rw [List.mem_cons, not_or] at h
    rw [List.cons_append, ← ih h.2, ← not_iff_not, ← execHeader_eq_none_iff,
      ← execHeader_eq_none_iff, execHeader, if_neg (Ne.symm h.1)]

theorem lastEquals_eq_none_iff {text : Text} : lastEquals text = none ↔ '=' ∉ text := by
  induction text with
  | nil => simp [lastEquals]
  | cons c rest ih =>
    rw [lastEquals, List.mem_cons, not_or, ← ih]
    cases lastEquals rest with
    | some parts => simp
    | none => by_cases hc : c = '=' <;> simp [hc, eq_comm]

theorem lastEquals_append {text before after : Text} (h : lastEquals text = some (before, after))
    (front : Text) : lastEquals (front ++ text) = some (front ++ before, after) := by
  induction front with
  | nil => exact h
  | cons c rest ih =>
    rw [List.cons_append, lastEquals, ih]
    rfl

theorem lastEquals_equals {after : Text} (h : '=' ∉ after) :
    lastEquals ('=' :: after) = some ([], after) := by
  rw [lastEquals, lastEquals_eq_none_iff.mpr h]
  rfl

theorem execProperty_of_single {l : Text} (h : SingleLine l) : execProperty l = lastEquals l := by
  rw [execProperty, List.splitOnP_eq_singleton h]
  cases hl : lastEquals l with
  | none => simp [hl]
  | some parts => simp [hl]

end Patterns

section Lines

/-- What is read back of a line: the key and the value, unless the value has an equals sign. -/
def Property.readAs (p : Property) : Text × Text :=
  match lastEquals p.value with
  | none => (p.key, p.value)
  | some (before, after) => (trim (p.key ++ [' ', '=', ' '] ++ before), trim after)

/-- The value with the blank before it, when there is one. -/
def Property.written (p : Property) : Text := if p.value = [] then [] else ' ' :: p.value

theorem blank_space : Blank [' '] := by
  intro c hc
  rw [List.mem_singleton.mp hc]
  rfl

theorem Property.line_eq (p : Property) : p.line = p.key ++ [' '] ++ '=' :: p.written := by
  rw [Property.line, Property.written]
  by_cases hvalue : p.value = []
  · have hsplit : p.key ++ [' ', '=', ' '] ++ p.value = p.key ++ [' '] ++ ['='] ++ [' '] := by
      rw [hvalue]
      simp
    rw [if_pos hvalue, hsplit, trimEnd_append_blank _ blank_space, trimEnd_of_last]
    intro c hc
    rw [List.getLast?_concat] at hc
    cases hc
    rfl
  · rw [if_neg hvalue, trimEnd_of_last]
    · simp
    · rw [List.getLast?_append_of_ne_nil _ hvalue]
      exact p.value_trimmed.2

theorem Property.trim_written (p : Property) : trim p.written = p.value := by
  rw [Property.written]
  by_cases hvalue : p.value = []
  · rw [if_pos hvalue, hvalue]
    rfl
  · have hpadded := trim_padded blank_space blank_nil p.value_trimmed
    rw [List.append_nil] at hpadded
    rw [if_neg hvalue]
    exact hpadded

theorem Property.mem_written {p : Property} {c : Char} (hc : c ≠ ' ') :
    c ∈ p.written ↔ c ∈ p.value := by
  rw [Property.written]
  by_cases hvalue : p.value = []
  · rw [if_pos hvalue, hvalue]
  · rw [if_neg hvalue, List.mem_cons, or_iff_right hc]

theorem Property.line_single (p : Property) : SingleLine p.line := by
  intro c hc
  rw [p.line_eq, List.append_assoc, List.mem_append, List.mem_append, List.mem_singleton,
    List.mem_cons] at hc
  rcases hc with hkey | rfl | rfl | hwritten
  · exact p.key_single c hkey
  · rfl
  · rfl
  · by_cases hspace : c = ' '
    · rw [hspace]
      rfl
    · exact p.value_single c ((Property.mem_written hspace).mp hwritten)

theorem Property.isLine (p : Property) : IsLine p.line := by
  have hkey := p.key_ne_nil
  refine ⟨?_, ⟨?_, ?_⟩, ?_⟩
  · rw [p.line_eq]
    simp
  · rw [p.line_eq, List.append_assoc, List.head?_append_of_ne_nil _ hkey]
    exact p.key_trimmed.1
  · exact trimEnd_last _
  · exact any_isNewline_of_single p.line_single

theorem isNameChar_header {c : Char} (h : isNameChar c = true) : isHeaderChar c = true := by
  unfold isNameChar at h
  unfold isHeaderChar isWhitespace
  simp only [Bool.or_eq_true] at h ⊢
  tauto

/-- A blank among the letters of a name is no newline. -/
theorem isNameChar_newline {c : Char} (h : isNameChar c = true) : isNewline c = false := by
  by_contra hnewline
  rw [Bool.not_eq_false, isNewline, Bool.or_eq_true, beq_iff_eq, beq_iff_eq] at hnewline
  rcases hnewline with rfl | rfl
  · revert h
    decide
  · revert h
    decide

theorem PropertiesSection.header_isLine (s : PropertiesSection) :
    IsLine ('[' :: (s.name ++ [']'])) := by
  refine ⟨List.cons_ne_nil _ _, ⟨?_, ?_⟩, ?_⟩
  · intro c hc
    cases hc
    rfl
  · intro c hc
    rw [← List.cons_append, List.getLast?_concat] at hc
    cases hc
    rfl
  · rw [List.any_eq_false]
    intro c hc hnewline
    rw [List.mem_cons, List.mem_append, List.mem_singleton] at hc
    rcases hc with rfl | hname | rfl
    · cases hnewline
    · rw [isNameChar_newline (s.name_chars c hname)] at hnewline
      cases hnewline
    · cases hnewline

theorem PropertiesSection.isLine (s : PropertiesSection) : ∀ l ∈ s.lines, IsLine l := by
  intro l hl
  rcases List.mem_cons.mp hl with rfl | hproperty
  · exact s.header_isLine
  · obtain ⟨p, -, rfl⟩ := List.mem_map.mp hproperty
    exact p.isLine

/-- A section begins a new section of the report. -/
theorem PropertiesSection.execHeader_name (s : PropertiesSection) :
    execHeader ('[' :: (s.name ++ [']'])) = some s.name := by
  rw [execHeader, if_pos rfl,
    execWord_bracket s.name_ne_nil (fun c hc => isNameChar_header (s.name_chars c hc)) []]
  rfl

theorem Property.execHeader_line (p : Property) :
    execHeader p.line = none ↔ ¬ Bracketed p.value := by
  have hfront : '[' ∉ p.key ++ [' ', '='] := by
    rw [List.mem_append, not_or]
    exact ⟨p.key_bracket, by decide⟩
  have hline : p.line = p.key ++ [' ', '='] ++ p.written := by
    rw [p.line_eq]
    simp
  rw [execHeader_eq_none_iff, hline, bracketed_append hfront, Property.written]
  by_cases hvalue : p.value = []
  · rw [if_pos hvalue, hvalue]
  · rw [if_neg hvalue, ← List.singleton_append, bracketed_append (by decide)]

/-- A line without a bracketed word is read as a property. -/
theorem Property.execProperty_line (p : Property) : ∃ name value,
    execProperty p.line = some (name, value) ∧ name.isEmpty = false ∧
      (trim name, trim value) = p.readAs := by
  rw [execProperty_of_single p.line_single, p.line_eq, Property.readAs]
  have hempty : ∀ rest, (p.key ++ [' '] ++ rest).isEmpty = false := by
    intro rest
    simp
  cases hvalue : lastEquals p.value with
  | none =>
    have hequals : '=' ∉ p.written := by
      rw [Property.mem_written (by decide)]
      exact lastEquals_eq_none_iff.mp hvalue
    refine ⟨_, _, lastEquals_append (lastEquals_equals hequals) _, hempty [], ?_⟩
    have hkey := trim_padded blank_nil blank_space p.key_trimmed
    rw [List.append_nil, p.trim_written]
    exact congrArg (·, p.value) hkey
  | some parts =>
    obtain ⟨before, after⟩ := parts
    have hne : p.value ≠ [] := by
      intro hnil
      rw [hnil] at hvalue
      cases hvalue
    have hline : p.key ++ [' '] ++ '=' :: p.written = p.key ++ [' ', '=', ' '] ++ p.value := by
      rw [Property.written, if_neg hne]
      simp
    rw [hline]
    refine ⟨_, _, lastEquals_append hvalue _, ?_, rfl⟩
    simp

end Lines

section Runs

theorem PropertiesSection.kept (s : PropertiesSection) :
    ∀ l ∈ s.lines, (!l.isEmpty && l.head? ≠ some '#') = true := by
  intro l hl
  have hempty : l.isEmpty = false := List.isEmpty_eq_false_iff.mpr (s.isLine l hl).1
  have hcomment : l.head? ≠ some '#' := by
    rcases List.mem_cons.mp hl with rfl | hproperty
    · exact fun h => nomatch h
    · obtain ⟨p, -, rfl⟩ := List.mem_map.mp hproperty
      rw [p.line_eq, List.append_assoc, List.head?_append_of_ne_nil _ p.key_ne_nil]
      exact p.key_comment
  simp [hempty, hcomment]

/-- The lines that are read are those that were written. -/
theorem contentLines_written {sections : List PropertiesSection} {before text after : Text}
    (hbefore : Blank before) (hafter : Blank after)
    (h : Written (sections.flatMap PropertiesSection.lines) text) :
    contentLines (before ++ text ++ after) = sections.flatMap PropertiesSection.lines := by
  have hlines : ∀ l ∈ sections.flatMap PropertiesSection.lines, IsLine l := by
    intro l hl
    obtain ⟨s, -, hs⟩ := List.mem_flatMap.mp hl
    exact s.isLine l hs
  have hkept : ∀ l ∈ sections.flatMap PropertiesSection.lines,
      (!l.isEmpty && l.head? ≠ some '#') = true := by
    intro l hl
    obtain ⟨s, -, hs⟩ := List.mem_flatMap.mp hl
    exact s.kept l hs
  rw [contentLines]
  cases heq : sections.flatMap PropertiesSection.lines with
  | nil =>
    rw [heq] at h
    cases h
    rw [trim_padded hbefore hafter trimmed_nil]
    rfl
  | cons line rest =>
    rw [heq] at h hlines hkept
    have htrim : ∀ l ∈ line :: rest, trim l = l := fun l hl => trim_of_trimmed (hlines l hl).2.1
    rw [splitLines_trim h hlines hbefore hafter, List.map_congr_left htrim, List.map_id',
      List.filter_eq_self.mpr hkept]

/-- A line that is read adds a section when it has a header, and none otherwise. -/
theorem addLine_length {sections sections' : List ReportSection} {l : Text}
    (h : addLine descriptions sections l = .ok sections') :
    sections'.length = sections.length + if (execHeader l).isSome then 1 else 0 := by
  unfold addLine at h
  cases hheader : execHeader l with
  | some header =>
    rw [hheader] at h
    cases h
    rw [List.length_append]
    rfl
  | none =>
    rw [hheader] at h
    cases hproperty : execProperty l with
    | none =>
      rw [hproperty] at h
      cases h
      rfl
    | some parts =>
      obtain ⟨name, value⟩ := parts
      rw [hproperty] at h
      simp only at h
      cases hname : name.isEmpty with
      | true =>
        rw [hname] at h
        cases h
        rfl
      | false =>
        rw [hname] at h
        cases hlast : sections.getLast? with
        | none =>
          rw [hlast] at h
          cases h
        | some last =>
          rw [hlast] at h
          cases h
          have hne : sections ≠ [] := by
            rintro rfl
            cases hlast
          have hpos := List.length_pos_iff.mpr hne
          simp only [List.length_append, List.length_dropLast, List.length_singleton]
          simp only [Option.isSome_none, Bool.false_eq_true, if_false]
          omega

theorem addLine_header (sections : List ReportSection) {l header : Text}
    (h : execHeader l = some header) :
    addLine descriptions sections l = .ok (sections ++ [⟨header, []⟩]) := by
  unfold addLine
  rw [h]
  rfl

/-- A line that is read as a property goes to the last section. -/
theorem addLine_property (done : List ReportSection) (last : ReportSection) {p : Property}
    (h : ¬ Bracketed p.value) :
    addLine descriptions (done ++ [last]) p.line = .ok (done ++ [{ last with
      lines := last.lines ++ [reportLine descriptions p.readAs.1 p.readAs.2] }]) := by
  obtain ⟨name, value, hproperty, hname, hread⟩ := p.execProperty_line
  unfold addLine
  rw [p.execHeader_line.mpr h, hproperty, ← hread]
  simp only [hname, Bool.false_eq_true, if_false]
  rw [List.getLast?_concat, List.dropLast_concat]
  rfl

theorem foldlM_addLine_length {lines : List Text} {sections sections' : List ReportSection}
    (h : lines.foldlM (addLine descriptions) sections = .ok sections') :
    sections'.length = sections.length + lines.countP fun l => (execHeader l).isSome := by
  induction lines generalizing sections with
  | nil =>
    cases h
    rfl
  | cons l rest ih =>
    rw [List.foldlM_cons, bind_ok] at h
    obtain ⟨between, hl, hrest⟩ := h
    rw [ih hrest, addLine_length descriptions hl, List.countP_cons]
    omega

/-- The section a report has for the lines of a section, each as it is read. -/
def PropertiesSection.read (s : PropertiesSection) : ReportSection :=
  ⟨s.name, s.properties.map fun p => reportLine descriptions p.readAs.1 p.readAs.2⟩

theorem foldlM_properties (done : List ReportSection) (header : Text) (lines : List ReportLine)
    {properties : List Property} (h : ∀ p ∈ properties, ¬ Bracketed p.value) :
    (properties.map Property.line).foldlM (addLine descriptions) (done ++ [⟨header, lines⟩]) =
      .ok (done ++ [⟨header, lines ++ properties.map fun p =>
        reportLine descriptions p.readAs.1 p.readAs.2⟩]) := by
  induction properties generalizing lines with
  | nil =>
    rw [List.map_nil, List.map_nil, List.append_nil]
    rfl
  | cons p rest ih =>
    have hp := addLine_property descriptions done ⟨header, lines⟩ (h p List.mem_cons_self)
    have hrest := ih (lines ++ [reportLine descriptions p.readAs.1 p.readAs.2])
      fun q hq => h q (List.mem_cons_of_mem _ hq)
    rw [List.map_cons, List.foldlM_cons, bind_ok]
    refine ⟨_, hp, hrest.trans ?_⟩
    rw [List.append_assoc]
    rfl

/-- Where no line of a property is taken for a header, each section is read as one. -/
theorem foldlM_sections (done : List ReportSection) {sections : List PropertiesSection}
    (h : ∀ s ∈ sections, ∀ p ∈ s.properties, ¬ Bracketed p.value) :
    (sections.flatMap PropertiesSection.lines).foldlM (addLine descriptions) done =
      .ok (done ++ sections.map (PropertiesSection.read descriptions)) := by
  induction sections generalizing done with
  | nil =>
    rw [List.map_nil, List.append_nil]
    rfl
  | cons s rest ih =>
    have hheader := addLine_header descriptions done s.execHeader_name
    have hproperties := foldlM_properties descriptions done s.name [] (h s List.mem_cons_self)
    have hrest := ih (done ++ [s.read descriptions]) fun q hq => h q (List.mem_cons_of_mem _ hq)
    rw [List.flatMap_cons, List.foldlM_append, PropertiesSection.lines, List.foldlM_cons, hheader,
      bind_ok]
    refine ⟨_, hproperties, hrest.trans ?_⟩
    rw [List.append_assoc]
    rfl

/-- The headers among the lines are those of the sections and the lines of properties that
have a bracketed word. -/
theorem countP_lines (sections : List PropertiesSection) :
    (sections.flatMap PropertiesSection.lines).countP (fun l => (execHeader l).isSome) =
      sections.length + (sections.flatMap PropertiesSection.properties).countP
        fun p => (execHeader p.line).isSome := by
  induction sections with
  | nil => rfl
  | cons s rest ih =>
    rw [List.flatMap_cons, List.flatMap_cons, List.countP_append, List.countP_append, ih,
      PropertiesSection.lines, List.countP_cons, s.execHeader_name, List.countP_map,
      List.length_cons]
    simp only [Option.isSome_some, if_true, Function.comp_def]
    omega

/-- The key is read back unless the value has an equals sign. -/
theorem Property.readAs_key_iff (p : Property) : p.readAs.1 = p.key ↔ '=' ∉ p.value := by
  rw [← lastEquals_eq_none_iff, Property.readAs]
  cases lastEquals p.value with
  | none => simp
  | some parts =>
    have hequals : '=' ∈ trim (p.key ++ [' ', '=', ' '] ++ parts.1) :=
      mem_trim (by simp) (by decide)
    refine ⟨fun hkey => ?_, fun h => nomatch h⟩
    have hread : trim (p.key ++ [' ', '=', ' '] ++ parts.1) = p.key := hkey
    rw [hread] at hequals
    exact absurd hequals p.key_equals

theorem hide_of_single {value : Text} (h : SingleLine value) :
    hide value = List.replicate (utf16Length value) '*' := by
  induction value with
  | nil => rfl
  | cons c rest ih =>
    have hrest := ih fun c' hc' => h c' (List.mem_cons_of_mem _ hc')
    rw [hide, List.flatMap_cons, h c List.mem_cons_self, utf16Length, List.map_cons, List.sum_cons,
      List.replicate_add]
    exact congrArg (List.replicate (codeUnits c) '*' ++ ·) hrest

/-- A line is reported as it was written unless its value has an equals sign. -/
theorem Property.reported_iff (p : Property) :
    reportLine descriptions p.readAs.1 p.readAs.2 =
        { reportLine descriptions p.key p.value with
          value := if hidden descriptions p.key then List.replicate (utf16Length p.value) '*'
            else p.value } ↔ '=' ∉ p.value := by
  constructor
  · intro h
    exact p.readAs_key_iff.mp (congrArg ReportLine.property h)
  · intro h
    have hread : p.readAs = (p.key, p.value) := by
      rw [Property.readAs, lastEquals_eq_none_iff.mpr h]
    rw [hread, ← hide_of_single p.value_single]
    rfl

/-- A report is faithful when no value holds an equals sign or a bracketed word, and only then. -/
theorem createReportFromFile_faithful_iff {sections : List PropertiesSection}
    {before text after : Text} (hbefore : Blank before) (hafter : Blank after)
    (h : Written (sections.flatMap PropertiesSection.lines) text) :
    createReportFromFile descriptions (before ++ text ++ after) =
        .ok (report descriptions sections) ↔
      ∀ s ∈ sections, ∀ p ∈ s.properties, '=' ∉ p.value ∧ ¬ Bracketed p.value := by
  rw [createReportFromFile, contentLines_written hbefore hafter h]
  constructor
  · intro hfaithful
    have hlength := foldlM_addLine_length descriptions hfaithful
    rw [countP_lines, report, List.length_map] at hlength
    have hcount : (sections.flatMap PropertiesSection.properties).countP
        (fun p => (execHeader p.line).isSome) = 0 := by
      rw [List.length_nil] at hlength
      omega
    have hplain : ∀ s ∈ sections, ∀ p ∈ s.properties, ¬ Bracketed p.value := by
      intro s hs p hp
      rw [← p.execHeader_line, ← Option.not_isSome_iff_eq_none]
      exact List.countP_eq_zero.mp hcount p (List.mem_flatMap.mpr ⟨s, hs, hp⟩)
    rw [foldlM_sections descriptions [] hplain, Except.ok.injEq, List.nil_append, report,
      List.map_inj_left] at hfaithful
    intro s hs p hp
    have hlines := List.map_inj_left.mp (congrArg ReportSection.lines (hfaithful s hs)) p hp
    exact ⟨(p.reported_iff descriptions).mp hlines, hplain s hs p hp⟩
  · intro hvalues
    rw [foldlM_sections descriptions [] fun s hs p hp => (hvalues s hs p hp).2, List.nil_append,
      report]
    congr 1
    refine List.map_congr_left fun s hs => congrArg (ReportSection.mk s.name) ?_
    exact List.map_congr_left fun p hp =>
      (p.reported_iff descriptions).mpr (hvalues s hs p hp).1

end Runs

/-- The descriptor of a signing key, as the presets have it. -/
def signingKeyDescriptions (name : Text) : Option Descriptor :=
  if name = "harvesterSigningPrivateKey".toList then
    some ⟨some true, some "Harvester signing private key.", some "string"⟩
  else none

def signingKeyProperty (value : Text) (htrimmed : Trimmed value) (hsingle : SingleLine value) :
    Property where
  key := "harvesterSigningPrivateKey".toList
  value := value
  key_ne_nil := by decide
  key_trimmed := by decide
  key_single := by decide
  key_equals := by decide
  key_bracket := by decide
  key_comment := by decide
  value_trimmed := htrimmed
  value_single := hsingle

def harvestingSection (p : Property) : PropertiesSection where
  name := "harvesting".toList
  properties := [p]
  name_ne_nil := by decide
  name_chars := List.all_eq_true.mp (by decide)

/-- A value that ends in an equals sign. -/
def paddedKey : Property :=
  signingKeyProperty "QUJD=".toList (by decide) (by decide)

def plainKey : Property :=
  signingKeyProperty "QUJD".toList (by decide) (by decide)

theorem written_harvesting (p : Property) :
    Written ([harvestingSection p].flatMap PropertiesSection.lines)
      ("[harvesting]".toList ++ ['\n'] ++ p.line) :=
  .cons ⟨fun c hc => by rw [List.mem_singleton.mp hc]; rfl, rfl⟩ (.one _)

theorem createReportFromFile_faithful_plain :
    createReportFromFile signingKeyDescriptions
        ("[harvesting]".toList ++ ['\n'] ++ plainKey.line) =
      .ok (report signingKeyDescriptions [harvestingSection plainKey]) := by
  have h := (@createReportFromFile_faithful_iff signingKeyDescriptions [harvestingSection plainKey]
    [] _ [] blank_nil blank_nil (written_harvesting plainKey)).mpr
  rw [List.nil_append, List.append_nil] at h
  refine h fun s hs p hp => ?_
  rw [List.mem_singleton.mp hs] at hp
  rw [List.mem_singleton.mp hp]
  refine ⟨by decide, ?_⟩
  rw [← execHeader_eq_none_iff]
  rfl

/-- The last equals sign divides a line, so a value that holds one is not hidden. -/
theorem createReportFromFile_unfaithful :
    ¬ ∀ (descriptions : Text → Option Descriptor) (sections : List PropertiesSection)
      (text : Text), Written (sections.flatMap PropertiesSection.lines) text →
      createReportFromFile descriptions text = .ok (report descriptions sections) := by
  intro hclaim
  have hreport := hclaim signingKeyDescriptions [harvestingSection paddedKey] _
    (written_harvesting paddedKey)
  have hread : createReportFromFile signingKeyDescriptions
      ("[harvesting]".toList ++ ['\n'] ++ paddedKey.line) =
        .ok [⟨"harvesting".toList, [⟨"harvesterSigningPrivateKey = QUJD".toList, [], false, "",
          ""⟩]⟩] := by rfl
  rw [hread, Except.ok.injEq] at hreport
  revert hreport
  decide

end SymbolBootstrap.ReportService
