import Mathlib
import TestBench.Config.Document
import TestBench.Config.Environment
import TestBench.Program
import TestBench.Proofs.AliasLayers
import TestBench.Proofs.RecordFields
import TestBench.Proofs.ReservedKeys
/-
  The layers of a configuration.

  A configuration is put together of layers: the file, the variables, and the arguments.  Each layer is
  a set of overrides.

  1. `Config.ofLayers` merges layers, the strongest one first: of each key the first layer that says
     something decides, and the defaults stand behind all of them.  Aliases are put behind each other
     instead, those of the strongest layer last, so that of each name the strongest layer decides that
     binds it (`lastBound?_ofLayers`).
  2. A record of independent values holds of each what is read of its own part (`Slot.Independent`).
     So a configuration document is decoded to the layer that its keys say (`said_of_decodeConfig`).
  3. Which file is used, an argument, a variable and the standard places say in this order (`FileUsed`);
     it is loaded iff its layer is valid by itself (`loaded_iff_layer`).
  4. Variables that are not set or do not write a number say nothing (`Overrides.SetBy`).
-/
namespace TestBench

open TestBench.CommandLine TestBench.Text

variable {σ α β : Type}

/-! ## Merging layers -/

/-- A layer that says nothing. -/
def Overrides.nothing : Overrides := ⟨none, none, none, none, none, none, none, none⟩

/-- What the arguments of a run say. -/
def Overrides.ofArguments (logLevel? : Option String) (r : RunArguments) : Overrides :=
  { Overrides.nothing with
    parallel := r.parallel
    details := r.details
    defaultTimeoutSecs := r.timeout
    delayFirstRetry := if r.delayFirstRetry then some true else none
    aliases := some r.aliases
    format := r.format
    logLevel := logLevel? }

/-- What the arguments in front of any command say. -/
def Overrides.ofLogLevel (logLevel? : Option String) : Overrides :=
  { Overrides.nothing with logLevel := logLevel? }

namespace Config

/-- The configuration of some layers, the strongest one first. -/
def ofLayers (layers : List Overrides) : Config :=
  { parallel := (layers.findSome? (·.parallel)).getD standard.parallel
    details := (layers.findSome? (·.details)).getD standard.details
    defaultTimeoutSecs :=
      (layers.findSome? (·.defaultTimeoutSecs)).getD standard.defaultTimeoutSecs
    delayFirstRetry := (layers.findSome? (·.delayFirstRetry)).getD standard.delayFirstRetry
    aliases := layers.reverse.flatMap (·.aliases.getD [])
    format := (layers.findSome? (·.format)).getD standard.format
    logLevel := (layers.findSome? (·.logLevel)).getD standard.logLevel }

/-- Overrides are a stronger layer. -/
theorem apply_ofLayers (o : Overrides) (layers : List Overrides) :
    o.apply (ofLayers layers) = ofLayers (o :: layers) := by
  have first {γ : Type} (key : Overrides → Option γ) (default : γ) :
      (key o).getD ((layers.findSome? key).getD default)
        = ((o :: layers).findSome? key).getD default := by
    rw [List.findSome?_cons]
    cases key o <;> rfl
  have aliases : (o :: layers).reverse.flatMap (·.aliases.getD [])
      = layers.reverse.flatMap (·.aliases.getD []) ++ o.aliases.getD [] := by
    rw [List.reverse_cons, List.flatMap_append, List.flatMap_singleton]
  simp only [Overrides.apply, ofLayers, first, aliases]

/-- The log level of the arguments comes over the other layers. -/
theorem withLogLevel_ofLayers (logLevel? : Option String) (layers : List Overrides) :
    { ofLayers layers with logLevel := logLevel?.getD (ofLayers layers).logLevel }
      = ofLayers (Overrides.ofLogLevel logLevel? :: layers) := by
  rw [← apply_ofLayers]
  simp only [Overrides.apply, Overrides.ofLogLevel, Overrides.nothing, Option.getD_none,
    List.append_nil]

/-- The arguments of a run come over the other layers, whether or not their log level has already. -/
theorem apply_withLogLevel (logLevel? : Option String) (r : RunArguments)
    (layers : List Overrides) :
    r.apply (ofLayers (Overrides.ofLogLevel logLevel? :: layers))
      = ofLayers (Overrides.ofArguments logLevel? r :: layers) := by
  have hdelay (b : Bool) : (r.delayFirstRetry || b)
      = (if r.delayFirstRetry = true then some true else none).getD b := by
    cases r.delayFirstRetry <;> rfl
  rw [← apply_ofLayers, ← apply_ofLayers]
  simp only [RunArguments.apply, Overrides.apply, Overrides.ofLogLevel, Overrides.ofArguments,
    Overrides.nothing, Option.getD_none, Option.getD_some, List.append_nil, hdelay]

/-! ## Valid configurations -/

/-- At least one suite may run, and all names are known. -/
structure Valid (c : Config) : Prop where
  parallel : 1 ≤ c.parallel
  details : ∃ details, Details.ofName? c.details = some details
  format : ∃ format, ReportFormat.ofName? c.format = some format
  logLevel : ∃ level, LogLevel.ofName? c.logLevel = some level

/-- A configuration is valid iff no fault is found in it. -/
theorem valid_iff {c : Config} : c.Valid ↔ c.fault? = none := by
  rw [fault?]
  constructor
  · rintro ⟨hparallel, ⟨details, hdetails⟩, ⟨format, hformat⟩, ⟨level, hlevel⟩⟩
    rw [if_neg (by omega), hdetails, hformat, hlevel]
    rfl
  · intro h
    have known {γ : Type} {o : Option γ} (h : ¬ o.isNone = true) : ∃ x, o = some x :=
      Option.ne_none_iff_exists'.1 (mt Option.isNone_iff_eq_none.2 h)
    split_ifs at h with hparallel hdetails hformat hlevel
    exact ⟨by omega, known hdetails, known hformat, known hlevel⟩

/-- The check lets a configuration through iff it is valid. -/
theorem checked_eq_ok_iff {c c' : Config} : c.checked = .ok c' ↔ c.Valid ∧ c' = c := by
  rw [checked, valid_iff]
  cases c.fault? with
  | none => exact ⟨fun h => ⟨rfl, (Except.ok.inj h).symm⟩, fun h => congrArg _ h.2.symm⟩
  | some fault => exact iff_of_false (fun h => nomatch h) fun h => nomatch h.1

end Config

/-! ## Records of independent values -/

/-- A value of a record that one field of the same name sets. -/
structure Slot (σ α : Type) where
  value : Type
  name : String
  read : σ → Except Refusal value
  get : α → value
  set : α → value → α

namespace Slot

/-- The field of a record that is written to the slot. -/
def field (s : Slot σ α) : Field σ α :=
  { name := s.name, read := fun v a => (s.read v).map (s.set a) }

/-- Two values have different names, and setting the first one leaves the second one. -/
def Leaves (s t : Slot σ α) : Prop := s.name ≠ t.name ∧ ∀ a b, t.get (s.set a b) = t.get a

/-- Each of some values can be set, and they do not touch each other. -/
structure Independent (slots : List (Slot σ α)) : Prop where
  sets : ∀ s ∈ slots, ∀ a b, s.get (s.set a b) = b
  apart : slots.Pairwise fun s t => s.Leaves t ∧ t.Leaves s

variable {slots front back : List (Slot σ α)} {s : Slot σ α}

/-- Among independent slots each one is decided by its own field and by no other. -/
theorem Independent.decides (h : Independent (front ++ s :: back)) :
    s.field.Decides (front.map field ++ back.map field) s.read s.get := by
  -- being apart is said of each pair once, so the slot has to be looked for on both sides
  have leaves : ∀ t ∈ front ++ back, t.Leaves s := by
    obtain ⟨_, hback, hbetween⟩ := List.pairwise_append.1 h.apart
    intro t ht
    rcases List.mem_append.1 ht with ht | ht
    · exact (hbetween t ht s List.mem_cons_self).1
    · exact (List.rel_of_pairwise_cons hback ht).2
  rw [← List.map_append]
  refine ⟨fun v a a' hread => ?_, ?_, ?_⟩
  · obtain ⟨b, hb, rfl⟩ := ok_of_map_ok hread
    rw [hb, h.sets s (List.mem_append_right _ List.mem_cons_self)]
  · refine List.forall_mem_map.2 fun t ht v a a' hread => ?_
    obtain ⟨b, _, rfl⟩ := ok_of_map_ok hread
    exact (leaves t ht).2 a b
  · refine List.forall_mem_map.2 fun t ht name hname => ?_
    rw [Field.answersTo_eq, List.contains_iff_mem] at hname
    rw [Field.answersTo_eq, ← Bool.not_eq_true, List.contains_iff_mem, List.mem_singleton.1 hname]
    exact fun hself => (leaves t ht).1 (List.mem_singleton.1 hself)

/-- Each value of a decoded record is what is read of its own part, or the initial one. -/
theorem Independent.readFrom (h : Independent slots) {format : Format σ} {what : String}
    {initial a : α} {source : σ}
    (hdecode : decodeRecord format what (slots.map field) initial source = .ok a) :
    ∃ parts, format.parts s!"struct {what}" source = .ok parts
      ∧ ∀ i s, slots[i]? = some s →
        ReadFrom s.read (s.get initial) (parts.under [s.name] i) (s.get a) := by
  have hparts : ∃ parts, format.parts s!"struct {what}" source = .ok parts := by
    obtain ⟨parts, hparts, _⟩ := ok_of_bind_ok hdecode
    exact ⟨parts, hparts⟩
  obtain ⟨parts, hparts⟩ := hparts
  refine ⟨parts, hparts, fun i s hs => ?_⟩
  obtain ⟨hi, rfl⟩ := List.getElem?_eq_some_iff.1 hs
  -- the slot with what is in front of it and what is behind it
  have hslots : slots = slots.take i ++ slots[i] :: slots.drop (i + 1) := by
    rw [← List.drop_eq_getElem_cons hi, List.take_append_drop]
  rw [hslots] at h hdecode
  rw [List.map_append, List.map_cons] at hdecode
  obtain ⟨parts', hparts', hfrom⟩ := decodeRecord_decides h.decides hdecode
  injection hparts.symm.trans hparts' with hsame
  rw [← hsame, List.length_map, List.length_take, Nat.min_eq_left hi.le] at hfrom
  exact hfrom

end Slot

/-! ## What a file says -/

/-- What one key says: nothing if there is no part for it, else what is read of that part. -/
inductive Given (read : σ → Except Refusal β) : List σ → Option β → Prop
  | missing : Given read [] none
  | present {v : σ} {b : β} (reads : read v = .ok b) : Given read [v] (some b)

/-- A value that is read of one part, or a default, is what the key says, or the default. -/
theorem ReadFrom.exists_given {read : σ → Except Refusal β} {default b : β} {parts : List σ}
    (h : ReadFrom read default parts b) : ∃ said, Given read parts said ∧ b = said.getD default := by
  cases h with
  | missing => exact ⟨none, .missing, rfl⟩
  | present reads => exact ⟨some b, .present reads, rfl⟩

/-- What the parts of a configuration document say. -/
structure Overrides.SaidBy (o : Overrides) (reads : Format σ) (parts : Parts σ) : Prop where
  parallel : Given (reads.word "usize") (parts.under ["parallel"] 0) o.parallel
  details : Given reads.text (parts.under ["details"] 1) o.details
  timeout : Given (reads.word "u64") (parts.under ["default_timeout_secs"] 2) o.defaultTimeoutSecs
  delayFirstRetry : Given reads.truth (parts.under ["delay_first_retry"] 3) o.delayFirstRetry
  aliases : Given (decodeList reads reads.text) (parts.under ["aliases"] 4) o.aliases
  format : Given reads.text (parts.under ["format"] 5) o.format
  logLevel : Given reads.text (parts.under ["log_level"] 6) o.logLevel
  configFile : o.configFile = none

section Document

/-- The values of a configuration document. -/
def configSlots (format : Format σ) : List (Slot σ Config) :=
  [⟨Nat, "parallel", format.word "usize", (·.parallel), fun c b => { c with parallel := b }⟩,
   ⟨String, "details", format.text, (·.details), fun c b => { c with details := b }⟩,
   ⟨Nat, "default_timeout_secs", format.word "u64", (·.defaultTimeoutSecs),
    fun c b => { c with defaultTimeoutSecs := b }⟩,
   ⟨Bool, "delay_first_retry", format.truth, (·.delayFirstRetry),
    fun c b => { c with delayFirstRetry := b }⟩,
   ⟨List String, "aliases", decodeList format format.text, (·.aliases),
    fun c b => { c with aliases := b }⟩,
   ⟨String, "format", format.text, (·.format), fun c b => { c with format := b }⟩,
   ⟨String, "log_level", format.text, (·.logLevel), fun c b => { c with logLevel := b }⟩]

/-- The fields of a configuration have names of their own, and each sets one value. -/
theorem configSlots_independent (format : Format σ) : Slot.Independent (configSlots format) := by
  constructor
  · simp [configSlots]
  · simp [configSlots, Slot.Leaves]

variable {format : Format σ} {source : σ}

/-- A decoded configuration is the layer that its document says, with nothing over it. -/
theorem said_of_decodeConfig {c : Config} (h : decodeConfig format source = .ok c) :
    ∃ parts o, format.parts "struct AppConfig" source = .ok parts
      ∧ Overrides.SaidBy o format parts ∧ c = Config.ofLayers [o] := by
  obtain ⟨parts, hparts, hread⟩ := (configSlots_independent format).readFrom h
  obtain ⟨parallel, hparallel, eparallel⟩ := (hread 0 _ rfl).exists_given
  obtain ⟨details, hdetails, edetails⟩ := (hread 1 _ rfl).exists_given
  obtain ⟨timeout, htimeout, etimeout⟩ := (hread 2 _ rfl).exists_given
  obtain ⟨delay, hdelay, edelay⟩ := (hread 3 _ rfl).exists_given
  obtain ⟨aliases, haliases, ealiases⟩ := (hread 4 _ rfl).exists_given
  obtain ⟨shape, hshape, eshape⟩ := (hread 5 _ rfl).exists_given
  obtain ⟨level, hlevel, elevel⟩ := (hread 6 _ rfl).exists_given
  -- what is said of each value by itself is a layer, and the standard stands where nothing is said
  let o : Overrides := ⟨parallel, details, timeout, delay, aliases, shape, level, none⟩
  refine ⟨parts, o, hparts, ⟨hparallel, hdetails, htimeout, hdelay, haliases, hshape, hlevel, rfl⟩, ?_⟩
  have hlayer : Config.ofLayers [o] = o.apply .standard := (Config.apply_ofLayers o []).symm
  have hc : c = ⟨c.parallel, c.details, c.defaultTimeoutSecs, c.delayFirstRetry, c.aliases, c.format,
    c.logLevel⟩ := rfl
  rw [hlayer, hc]
  exact Config.mk.injEq .. ▸ ⟨eparallel, edetails, etimeout, edelay, ealiases, eshape, elevel⟩

end Document

/-! ## Which file it is -/

/-- The configuration file of a run: an argument names it, or else a variable, or else it is the first
    file in the standard places; there may be none. -/
inductive FileUsed (named? set? : Option String) (m : Machine) : Option String → Prop
  | argument {path : String} (given : named? = some path) :
      FileUsed named? set? m (some (Config.expandHome m.home? path))
  | environment {path : String} (missing : named? = none) (set : set? = some path) :
      FileUsed named? set? m (some (Config.expandHome m.home? path))
  | standard {front back : List String} {path : String} (missing : named? = none)
      (unset : set? = none)
      (places : Config.standardPaths.map (Config.expandHome m.home?) = front ++ path :: back)
      (first : ∀ p ∈ front, m.files.isFile p = false) (found : m.files.isFile path = true) :
      FileUsed named? set? m (some path)
  | nowhere (missing : named? = none) (unset : set? = none)
      (absent : ∀ p ∈ Config.standardPaths, m.files.isFile (Config.expandHome m.home? p) = false) :
      FileUsed named? set? m none

/-- The configuration of the file that is named, or of the first one in the standard places. -/
def Config.loadFrom (path? : Option String) (m : Machine) : Except ConfigError Config :=
  match path? with
  | some path => Config.load m.files (Config.expandHome m.home? path)
  | none => Config.loadStandard m.files m.home?

/-- What a configuration file says, read as YAML or as JSON; no file says nothing. -/
inductive FileLayer (m : Machine) : Option String → Overrides → Prop
  | nothing : FileLayer m none .nothing
  | yaml {path text : String} {node : Yaml.Node} {parts : Parts Yaml.Node} {o : Overrides}
      (yaml : isYamlPath path = true) (read : m.files.readText path = .ok text)
      (parsed : Yaml.parse? text = some node)
      (decoded : decodeConfig Yaml.Node.format node = .ok (Config.ofLayers [o]))
      (taken : Yaml.Node.format.parts "struct AppConfig" node = .ok parts)
      (said : o.SaidBy Yaml.Node.format parts) : FileLayer m (some path) o
  | json {path text : String} {value : Json} {parts : Parts Json} {o : Overrides}
      (json : isYamlPath path = false) (read : m.files.readText path = .ok text)
      (parsed : Json.parse? text = some value)
      (decoded : decodeConfig Json.format value = .ok (Config.ofLayers [o]))
      (taken : Json.format.parts "struct AppConfig" value = .ok parts)
      (said : o.SaidBy Json.format parts) : FileLayer m (some path) o

section File

variable {named? set? : Option String} {m : Machine}

/-- The place that is used is always the same one. -/
theorem fileUsed_iff {place : Option String} : FileUsed named? set? m place
    ↔ place = match named? <|> set? with
      | some path => some (Config.expandHome m.home? path)
      | none => Config.find? m.files m.home? := by
  -- of the standard places the first counts that has a file
  have found (path : String) : Config.find? m.files m.home? = some path
      ↔ m.files.isFile path = true ∧ ∃ front back,
        Config.standardPaths.map (Config.expandHome m.home?) = front ++ path :: back
          ∧ ∀ p ∈ front, m.files.isFile p = false := by
    rw [Config.find?, List.find?_eq_some_iff_append]
    simp only [Bool.not_eq_true']
  have missing : Config.find? m.files m.home? = none ↔ ∀ p ∈ Config.standardPaths,
      m.files.isFile (Config.expandHome m.home? p) = false := by
    rw [Config.find?, List.find?_eq_none, List.forall_mem_map]
    simp only [Bool.not_eq_true]
  constructor
  · intro h
    cases h with
    | argument given => rw [given]; rfl
    | environment missing set => rw [missing, set]; rfl
    | @standard front back path absent unset places first isFile =>
      rw [absent, unset]
      exact ((found path).2 ⟨isFile, front, back, places, first⟩).symm
    | nowhere absent unset nothing =>
      rw [absent, unset]
      exact (missing.2 nothing).symm
  · rintro rfl
    cases named? with
    | some path => exact .argument rfl
    | none =>
      cases set? with
      | some path => exact .environment rfl rfl
      | none =>
        show FileUsed none none m (Config.find? m.files m.home?)
        cases hfind : Config.find? m.files m.home? with
        | none => exact .nowhere rfl rfl (missing.1 hfind)
        | some path =>
          obtain ⟨isFile, front, back, places, first⟩ := (found path).1 hfind
          exact .standard rfl rfl places first isFile

/-- Text of the other kind is decoded iff it can be read and its value decoded. -/
theorem ofJson_eq_ok_iff {text : String} {c : Config} : Config.ofJson text = .ok c
    ↔ ∃ value, Json.parse? text = some value ∧ decodeConfig Json.format value = .ok c := by
  rw [Config.ofJson]
  cases Json.parse? text with
  | none => exact iff_of_false (fun h => nomatch h) fun ⟨_, h, _⟩ => nomatch h
  | some value => simp only [Option.some.injEq, exists_eq_left']

/-- A file is loaded iff it can be read and decoded and is valid by itself. -/
theorem load_eq_ok_iff {path : String} {c : Config} : Config.load m.files path = .ok c
    ↔ ∃ text, m.files.readText path = .ok text
      ∧ (if isYamlPath path = true then Config.ofYaml text = .ok c else Config.ofJson text = .ok c)
      ∧ c.Valid := by
  -- both kinds of text are checked the same way once they are decoded
  have decoded {x : Except Refusal Config} {f : Refusal → ConfigError} :
      (x.mapError f >>= Config.checked) = .ok c ↔ x = .ok c ∧ c.Valid := by
    cases x with
    | error e => exact iff_of_false (fun h => nomatch h) fun h => nomatch h.1
    | ok c' =>
      show c'.checked = .ok c ↔ Except.ok c' = .ok c ∧ c.Valid
      rw [Config.checked_eq_ok_iff, Except.ok.injEq]
      constructor
      · rintro ⟨valid, rfl⟩
        exact ⟨rfl, valid⟩
      · rintro ⟨rfl, valid⟩
        exact ⟨valid, rfl⟩
  rw [Config.load]
  cases m.files.readText path with
  | error e => exact iff_of_false (fun h => nomatch h) fun ⟨_, h, _⟩ => nomatch h
  | ok text =>
    simp only [Except.ok.injEq, exists_eq_left']
    split
    · exact decoded
    · exact decoded

/-- A file is loaded iff its layer is valid, and then it is the configuration of that layer alone. -/
theorem load_iff_layer {path : String} {c : Config} : Config.load m.files path = .ok c
    ↔ ∃ o, FileLayer m (some path) o ∧ (Config.ofLayers [o]).Valid ∧ c = Config.ofLayers [o] := by
  rw [load_eq_ok_iff]
  constructor
  · rintro ⟨text, read, hdecode, valid⟩
    split at hdecode
    · rename_i yaml
      obtain ⟨node, parsed, decoded⟩ := decodeYamlText_eq_ok_iff.1 hdecode
      obtain ⟨parts, o, taken, said, rfl⟩ := said_of_decodeConfig decoded
      exact ⟨o, .yaml yaml read parsed decoded taken said, valid, rfl⟩
    · rename_i json
      obtain ⟨value, parsed, decoded⟩ := ofJson_eq_ok_iff.1 hdecode
      obtain ⟨parts, o, taken, said, rfl⟩ := said_of_decodeConfig decoded
      exact ⟨o, .json (Bool.not_eq_true _ ▸ json) read parsed decoded taken said, valid, rfl⟩
  · rintro ⟨o, layer, valid, rfl⟩
    cases layer with
    | yaml yaml read parsed decoded =>
      exact ⟨_, read, if_pos yaml ▸ decodeYamlText_eq_ok_iff.2 ⟨_, parsed, decoded⟩, valid⟩
    | json json read parsed decoded =>
      exact ⟨_, read, if_neg (ne_true_of_eq_false json) ▸ ofJson_eq_ok_iff.2 ⟨_, parsed, decoded⟩,
        valid⟩

/-- The configuration of the place that is used. -/
theorem loaded_iff_layer {place : Option String} (used : FileUsed named? set? m place) {c : Config} :
    Config.loadFrom (named? <|> set?) m = .ok c
      ↔ ∃ o, FileLayer m place o ∧ (Config.ofLayers [o]).Valid ∧ c = Config.ofLayers [o] := by
  -- without a file nothing is said, and what nothing is said of is valid
  have standard : Except.ok Config.standard = (.ok c : Except ConfigError Config)
      ↔ ∃ o, FileLayer m none o ∧ (Config.ofLayers [o]).Valid ∧ c = Config.ofLayers [o] := by
    rw [Except.ok.injEq]
    constructor
    · exact fun h => ⟨.nothing, .nothing, Config.valid_iff.2 (by decide), h.symm⟩
    · rintro ⟨o, layer, _, h⟩
      cases layer
      exact h.symm
  rw [fileUsed_iff.1 used]
  cases named? <|> set? with
  | some path => exact load_iff_layer
  | none =>
    show Config.loadStandard m.files m.home? = .ok c ↔ _
    rw [Config.loadStandard]
    cases Config.find? m.files m.home? with
    | some path => exact load_iff_layer
    | none => exact standard

end File

/-! ## What the variables say -/

/-- The number that a variable says: none if it is not set, or does not write one that fits a word. -/
inductive NumberSet : Option String → Option Nat → Prop
  | unset : NumberSet none none
  | illegible {text : String} (nothing : ¬ ∃ n, IsDecimal text.toList n ∧ n < wordLimit) :
      NumberSet (some text) none
  | number {text : String} {n : Nat} (decimal : IsDecimal text.toList n) (fits : n < wordLimit) :
      NumberSet (some text) (some n)

/-- What the variables of an environment say. -/
structure Overrides.SetBy (o : Overrides) (environment : Variables) : Prop where
  parallel : NumberSet (value? environment "PARALLEL") o.parallel
  details : o.details = value? environment "DETAILS"
  timeout : NumberSet (value? environment "TIMEOUT") o.defaultTimeoutSecs
  delayFirstRetry : o.delayFirstRetry = (value? environment "DELAY_FIRST_RETRY").map affirms
  aliases : o.aliases = (value? environment "ALIASES").map entriesIn
  format : o.format = value? environment "FORMAT"
  logLevel : o.logLevel = value? environment "LOG_LEVEL"
  configFile : o.configFile = value? environment "CONFIG"

/-- A variable sets a number iff it is one that fits a word. -/
theorem numberSet (text? : Option String) : NumberSet text? (text?.bind (word64 ·.toList)) := by
  cases text? with
  | none => exact .unset
  | some text =>
    rw [Option.bind_some]
    cases hword : word64 text.toList with
    | none =>
      refine .illegible ?_
      rintro ⟨n, hn⟩
      rw [word64_eq_some_iff.2 hn] at hword
      cases hword
    | some n =>
      obtain ⟨decimal, fits⟩ := word64_eq_some_iff.1 hword
      exact .number decimal fits

/-- What is read of the variables is what they set. -/
theorem Overrides.ofVariables_setBy (environment : Variables) :
    (ofVariables environment).SetBy environment :=
  ⟨numberSet _, rfl, numberSet _, rfl, rfl, rfl, rfl, rfl⟩

/-! ## Aliases of layers -/

/-- The strongest layer that binds a name decides it, by its last entry for that name. -/
theorem lastBound?_ofLayers (layers : List Overrides) (name : String) :
    Aliases.lastBound? (Config.ofLayers layers).aliases name
      = layers.findSome? fun o => Aliases.lastBound? (o.aliases.getD []) name := by
  induction layers with
  | nil => rfl
  | cons o rest ih =>
    rw [← Config.apply_ofLayers, Overrides.apply, Aliases.lastBound?_append, ih, List.findSome?_cons]
    cases Aliases.lastBound? (o.aliases.getD []) name <;> rfl

end TestBench
