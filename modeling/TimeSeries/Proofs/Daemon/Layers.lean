import Mathlib
import TimeSeries.Daemon.Settings
import TimeSeries.Proofs.Daemon.CommandLine
import TimeSeries.Proofs.Daemon.Environment
import TimeSeries.Proofs.Failing

/-!
# Sources of settings

Settings that were accepted come from four layers: the options of the command line, the variables
of the environment, the settings file, and the defaults. Each setting is decided by the highest
layer that has something to say of it, whatever the layers say of the others. Two things
are lost on the way. A text in the environment is taken for the value that it writes, and stays as
it is only if that value is shown like this. And a variable that stands in for an option counts
even if it is empty; then no settings are accepted.
-/

namespace TimeSeries

open Document Environment

variable {args : List String} {env : List (String × String)} {disk : Disk}

/-! ## The layers of a setting -/

/-- What an option, the environment and the settings file together say of a setting: what the first
of them says that says anything. -/
inductive SetBy {α : Type} (decode : Document → Option α) (option : Option α)
    (env file : Option Document) : Option α → Prop where
  | option {a : α} : option = some a → SetBy decode option env file (some a)
  | environment {v : Document} {a : α} : option = none → env = some v → decode v = some a →
      SetBy decode option env file (some a)
  | file {v : Document} {a : α} : option = none → env = none → file = some v → decode v = some a →
      SetBy decode option env file (some a)
  | unset : option = none → env = none → file = none → SetBy decode option env file none

/-- What the type and the level of a codec say of the codec. Only one codec has a level. -/
inductive CodecOf (type level : Option Document) : Option Compression → Prop where
  | unset : type = none → CodecOf type level none
  | none : type = some (text "none") → CodecOf type level (some .none)
  | lz4 : type = some (text "lz4") → CodecOf type level (some .lz4)
  | zstd {n : Int} : type = some (text "zstd") → level = some (integer n) → -2147483648 ≤ n →
      n ≤ 2147483647 → CodecOf type level (some (.zstd n))

/-- What a settings file says of the type or the level of the codec: the field of a table, or the
item of a list in its place. -/
def codecPart (doc : Document) (part : String) (place : Nat) : Option Document :=
  match doc.field? "compression" with
  | some (table fields) => fields.lookup part
  | some (list items) => items[place]?
  | _ => none

/-- What the environment and the settings file say of an item of the list that describes the
codec. -/
def codecItem (env : List (String × String)) (doc : Document) (n : Nat) : Option Document :=
  (textAt? [.key "compression", .item n] env doc).map readValue <|>
    at? [.key "compression", .item n] doc

/-- What the environment and the settings file together say of the codec. Type and level are said
each by the environment or else by the file. They are the items of a list if the last variable for
the codec leads to an item. -/
def CodecBy (env : List (String × String)) (doc : Document) (c : Option Compression) : Prop :=
  match lastRest? env "compression" with
  | some (.index _ :: _) => CodecOf (codecItem env doc 0) (codecItem env doc 1) c
  | _ => CodecOf (value? env [.key "compression", .key "type"] <|> codecPart doc "type" 0)
      (value? env [.key "compression", .key "level"] <|> codecPart doc "level" 1) c

section Field

variable {α : Type} {decode : Document → Option α} {doc doc' v d : Document} {key : String}

/-- A document is decoded only if it is a plain value. -/
def DecodesPlain (decode : Document → Option α) : Prop :=
  ∀ v a, decode v = some a → v.isPlain = true

theorem decodesPlain_asText : DecodesPlain asText := by
  intro v a h
  cases v <;> first | rfl | cases h

theorem decodesPlain_asInteger : DecodesPlain asInteger := by
  intro v a h
  cases v <;> first | rfl | cases h

theorem decodesPlain_asCount : DecodesPlain asCount := by
  intro v a h
  cases v <;> first | rfl | cases h

/-- Nothing was set where nothing is. -/
theorem unset_of_field (happly : apply env doc = some doc') (h : doc'.field? key = none) :
    lastRest? env key = none ∧ doc.field? key = none := by
  have hnull := field?_eq_none_iff.mp h
  have hchild := apply_child? happly key
  split at hchild
  · next hrest =>
    refine ⟨hrest, field?_eq_none_iff.mpr fun v hv => hnull v ?_⟩
    rwa [at?_singleton, hchild, ← at?_singleton]
  · next rest _ =>
    obtain ⟨d, hd, hmakes⟩ := hchild
    obtain rfl := hnull d (by rw [at?_singleton, hd])
    -- no variable leaves a null behind
    cases rest with
    | nil => cases hmakes
    | cons step rest =>
      cases step with
      | key name =>
        obtain ⟨fields, hfields⟩ := hmakes
        cases hfields
      | index i =>
        obtain ⟨items, hitems⟩ := hmakes
        cases hitems

/-- **The field of a setting is what the environment and the file say of it**, unless an option
goes before. -/
theorem setBy_field (happly : apply env doc = some doc') (hdecode : DecodesPlain decode)
    {a : Option α} (option : Option α)
    (h : PartialSettings.field doc' key decode = some a) :
    SetBy decode option (value? env [.key key]) (doc.field? key) (option <|> a) := by
  cases option with
  | some b => exact .option rfl
  | none =>
    rw [PartialSettings.field] at h
    split at h
    · next hfield =>
      obtain rfl := Option.some_inj.mp h
      obtain ⟨hrest, hfile⟩ := unset_of_field happly hfield
      exact .unset rfl (value?_eq_none hrest []) hfile
    · next v hfield =>
      obtain ⟨b, hb, rfl⟩ := Option.map_eq_some_iff.mp h
      obtain ⟨hat, hnull⟩ := field?_eq_some_iff.mp hfield
      have hsource : (value? env [.key key] <|> at? [.key key] doc) = some v :=
        value?_or_at? [key] (hdecode v b hb) happly hat
      cases henv : value? env [.key key] with
      | some w =>
        rw [henv] at hsource
        exact .environment rfl rfl (Option.some_inj.mp hsource ▸ hb)
      | none =>
        rw [henv] at hsource
        exact .file rfl rfl (field?_eq_some_iff.mpr ⟨hsource, hnull⟩) hb

/-- Where there is no option, a text from the environment comes through as it is just if it is
kept. -/
theorem SetBy.text_iff {option : Option String} {file : Option Document} {text : String}
    {a : Option String} (h : SetBy asText option (value? env [.key key]) file a)
    (hoption : option = none) (htext : text? env [.key key] = some text) :
    ∃ b, a = some b ∧ (b = text ↔ KeptAsText text) := by
  have hvalue : value? env [.key key] = some (readValue text) := by
    rw [value?, htext]
    rfl
  rw [hoption, hvalue] at h
  cases h with
  | option hsome => cases hsome
  | environment _ hsource hb =>
    rw [← Option.some_inj.mp hsource] at hb
    refine ⟨_, rfl, ?_⟩
    rw [← asText_readValue_iff, hb, Option.some_inj]
  | file _ hnone => cases hnone
  | unset _ hnone => cases hnone

/-! ## The codec -/

theorem asLevel_eq_some {level : Option Document} {n : Int} (h : asLevel level = some n) :
    level = some (integer n) ∧ -2147483648 ≤ n ∧ n ≤ 2147483647 := by
  unfold asLevel at h
  split at h
  · split at h
    · next n' hn =>
      obtain rfl := Option.some_inj.mp h
      exact ⟨rfl, hn⟩
    · cases h
  · cases h

/-- A codec is described by a table or by a list. -/
theorem asCompression_eq_some {c : Compression} (h : asCompression d = some c) :
    (∃ fields, d = table fields ∧
        CodecOf (fields.lookup "type") (fields.lookup "level") (some c)) ∨
      ∃ items, d = list items ∧ CodecOf items[0]? items[1]? (some c) := by
  unfold asCompression at h
  split at h
  · next fields =>
    refine .inl ⟨fields, rfl, ?_⟩
    split at h
    · next htype =>
      obtain rfl := Option.some_inj.mp h
      exact .none htype
    · next htype =>
      obtain rfl := Option.some_inj.mp h
      exact .lz4 htype
    · next htype =>
      obtain ⟨n, hn, rfl⟩ := Option.map_eq_some_iff.mp h
      obtain ⟨hlevel, hmin, hmax⟩ := asLevel_eq_some hn
      exact .zstd htype hlevel hmin hmax
    · cases h
  · obtain rfl := Option.some_inj.mp h
    exact .inr ⟨_, rfl, .none rfl⟩
  · obtain rfl := Option.some_inj.mp h
    exact .inr ⟨_, rfl, .lz4 rfl⟩
  · next level =>
    obtain ⟨n, hn, rfl⟩ := Option.map_eq_some_iff.mp h
    obtain ⟨hlevel, hmin, hmax⟩ := asLevel_eq_some hn
    exact .inr ⟨_, rfl, .zstd rfl hlevel hmin hmax⟩
  · cases h

/-- A codec is described by plain values, so that it matters only where these come from. -/
theorem CodecOf.of_isPlain {type level type' level' : Option Document} {c : Compression}
    (h : CodecOf type level (some c))
    (htype' : ∀ v, v.isPlain = true → type = some v → type' = some v)
    (hlevel' : ∀ v, v.isPlain = true → level = some v → level' = some v) :
    CodecOf type' level' (some c) := by
  cases h with
  | none htype => exact .none (htype' _ rfl htype)
  | lz4 htype => exact .lz4 (htype' _ rfl htype)
  | zstd htype hlevel hmin hmax =>
    exact .zstd (htype' _ rfl htype) (hlevel' _ rfl hlevel) hmin hmax

/-- A plain value in the table of the codec comes from the environment or from the file. -/
theorem codecPart_of_table {fields : List (String × Document)} {part : String} {place : Nat}
    (happly : apply env doc = some doc')
    (hat : at? [.key "compression"] doc' = some (table fields)) (hv : v.isPlain = true)
    (h : fields.lookup part = some v) :
    (value? env [.key "compression", .key part] <|> codecPart doc part place) = some v := by
  have hpart : at? [.key "compression", .key part] doc' = some v := by
    rw [← List.singleton_append, at?_append, hat, Option.bind_some, at?_singleton]
    exact h
  have hsource : (value? env [.key "compression", .key part] <|>
      at? [.key "compression", .key part] doc) = some v :=
    value?_or_at? ["compression", part] hv happly hpart
  cases henv : value? env [.key "compression", .key part] with
  | some w => rwa [henv] at hsource
  | none =>
    rw [henv, ← List.singleton_append] at hsource
    replace hsource : at? ([.key "compression"] ++ [.key part]) doc = some v := hsource
    rw [at?_append, Option.bind_eq_some_iff] at hsource
    obtain ⟨w, hw, hsource⟩ := hsource
    rw [at?_singleton] at hsource
    cases w with
    | table fs =>
      have hfield : doc.field? "compression" = some (table fs) :=
        field?_eq_some_iff.mpr ⟨hw, by simp⟩
      rw [codecPart, hfield]
      exact hsource
    | _ => cases hsource

/-- A plain item of the list of the codec comes from the environment or from the file. -/
theorem codecItem_of_list {items : List Document} {n : Nat} (happly : apply env doc = some doc')
    (hat : at? [.key "compression"] doc' = some (list items)) (hv : v.isPlain = true)
    (h : items[n]? = some v) : codecItem env doc n = some v := by
  refine textAt?_or_at? hv happly ?_
  rw [← List.singleton_append, at?_append, hat, Option.bind_some, at?_singleton]
  exact h

/-- **The codec is the one that the highest sources of its type and of its level describe.** -/
theorem codecBy_field {c : Option Compression} (happly : apply env doc = some doc')
    (h : PartialSettings.field doc' "compression" asCompression = some c) :
    CodecBy env doc c := by
  have hmade := apply_child? happly "compression"
  rw [PartialSettings.field] at h
  split at h
  · next hfield =>
    obtain rfl := Option.some_inj.mp h
    obtain ⟨hrest, hfile⟩ := unset_of_field happly hfield
    rw [CodecBy, hrest]
    exact .unset (by rw [value?_eq_none hrest, codecPart, hfile]; rfl)
  · next v hfield =>
    obtain ⟨c, hc, rfl⟩ := Option.map_eq_some_iff.mp h
    obtain ⟨hat, hnull⟩ := field?_eq_some_iff.mp hfield
    rw [← at?_singleton, hat] at hmade
    rw [CodecBy]
    rcases asCompression_eq_some hc with ⟨fields, rfl, hcodec⟩ | ⟨items, rfl, hcodec⟩
    · -- there is a table, so that no item was set last
      split
      · next i rest hrest =>
        rw [hrest] at hmade
        obtain ⟨d, hd, items, rfl⟩ := hmade
        cases hd
      · exact hcodec.of_isPlain (fun v hv => codecPart_of_table happly hat hv)
          (fun v hv => codecPart_of_table happly hat hv)
    · split
      · exact hcodec.of_isPlain (fun v hv => codecItem_of_list happly hat hv)
          (fun v hv => codecItem_of_list happly hat hv)
      · next hindex =>
        -- no other variable leaves a list, so that the list is that of the file
        cases hrest : lastRest? env "compression" with
        | none =>
          rw [hrest] at hmade
          have hfile : doc.field? "compression" = some (list items) := by
            refine field?_eq_some_iff.mpr ⟨?_, hnull⟩
            rw [at?_singleton]
            exact hmade.symm
          rw [value?_eq_none hrest, value?_eq_none hrest, codecPart, codecPart, hfile]
          exact hcodec
        | some rest =>
          rw [hrest] at hmade
          obtain ⟨d, hd, hmakes⟩ := hmade
          obtain rfl := Option.some_inj.mp hd
          match rest, hmakes with
          | .key name :: _, ⟨fields, hfields⟩ => cases hfields
          | .index i :: rest, _ => exact absurd hrest (hindex i rest)

end Field

/-! ## Accepted settings -/

/-- The fields of settings that were decoded. -/
structure PartialSettings.Decoded (doc : Document) (p : PartialSettings) : Prop where
  dataset : field doc "dataset" asText = some p.dataset
  httpBind : field doc "http_bind" asText = some p.httpBind
  windowSeconds : field doc "chunk_duration_secs" asInteger = some p.windowSeconds
  metricsDelay : field doc "metrics_delay_secs" asInteger = some p.metricsDelay
  staleDelay : field doc "stale_data_delay_secs" asInteger = some p.staleDelay
  intervalSeconds : field doc "lifecycle_interval_secs" asCount = some p.intervalSeconds
  spillDir : field doc "spill_dir" asText = some p.spillDir
  compression : field doc "compression" asCompression = some p.compression
  ingestFile : field doc "ingest_file" asText = some p.ingestFile

theorem PartialSettings.decoded_of_ofDocument? {doc : Document} {p : PartialSettings}
    (h : ofDocument? doc = some p) : Decoded doc p := by
  simp only [ofDocument?, Option.bind_eq_bind, Option.bind_eq_some_iff] at h
  obtain ⟨_, h₁, _, h₂, _, h₃, _, h₄, _, h₅, _, h₆, _, h₇, _, h₈, _, h₉, h⟩ := h
  cases h
  exact ⟨h₁, h₂, h₃, h₄, h₅, h₆, h₇, h₈, h₉⟩

namespace DaemonSettings

variable {line flags : CommandLine} {doc : Document} {s : DaemonSettings} {p : PartialSettings}

theorem collect_eq_ok (h : collect line env disk = .ok p) :
    ∃ doc doc' q, fileDocument disk line = .ok doc ∧ apply env doc = some doc' ∧
      PartialSettings.Decoded doc' q ∧ p = q.withOptions line := by
  obtain ⟨doc, hdoc, h⟩ := bind_eq_ok.mp h
  split at h
  · cases h
  · next doc' happly =>
    split at h
    · cases h
    · next q hq =>
      exact ⟨doc, doc', q, hdoc, happly, PartialSettings.decoded_of_ofDocument? hq,
        (Except.ok.inj h).symm⟩

theorem ofPartial_eq_ok (h : ofPartial disk p = .ok s) :
    s.manager = p.manager ∧ s.lifecycle = p.lifecycle ∧
      SocketAddress.parse? p.address = some s.httpBind ∧ s.ingestFile = p.ingestFile := by
  obtain ⟨-, -, h⟩ := bind_eq_ok.mp h
  obtain ⟨-, -, h⟩ := bind_eq_ok.mp h
  split at h
  · cases h
  · next address haddress =>
    obtain rfl := Except.ok.inj h
    exact ⟨rfl, rfl, haddress, rfl⟩

/-- Settings that come from the options `flags`, the environment `env`, the document `doc` of the
settings file, and the defaults. -/
structure Layered (flags : CommandLine) (env : List (String × String)) (doc : Document)
    (s : DaemonSettings) : Prop where
  dataset : ∃ a, SetBy asText (flags.value? .dataset) (value? env [.key "dataset"])
    (doc.field? "dataset") a ∧ s.manager.dataset = a.getD "metrics"
  windowSeconds : ∃ a, SetBy asInteger none (value? env [.key "chunk_duration_secs"])
    (doc.field? "chunk_duration_secs") a ∧ s.manager.windowSeconds = a.getD 7200
  metricsDelay : ∃ a, SetBy asInteger none (value? env [.key "metrics_delay_secs"])
    (doc.field? "metrics_delay_secs") a ∧ s.lifecycle.metricsDelay = a.getD 900
  staleDelay : ∃ a, SetBy asInteger none (value? env [.key "stale_data_delay_secs"])
    (doc.field? "stale_data_delay_secs") a ∧ s.lifecycle.staleDelay = a.getD 21600
  interval : ∃ a, SetBy asCount none (value? env [.key "lifecycle_interval_secs"])
    (doc.field? "lifecycle_interval_secs") a ∧ s.lifecycle.intervalMillis = 1000 * a.getD 60
  directory : ∃ a, SetBy asText (flags.value? .spillDir) (value? env [.key "spill_dir"])
    (doc.field? "spill_dir") a ∧ s.manager.form.directory = a.map Path.ofText
  compression : ∃ a, CodecBy env doc a ∧ s.manager.form.compression = a.getD .none
  /-- The variable of the option goes before one that is written in another case. -/
  httpBind : ∃ a, SetBy asText (flags.value? .httpBind <|> env.lookup "CHUNKDB_HTTP_BIND")
    (value? env [.key "http_bind"]) (doc.field? "http_bind") a ∧
      SocketAddress.parse? (a.getD "127.0.0.1:8080") = some s.httpBind
  ingestFile : SetBy asText (flags.value? .ingestFile) (value? env [.key "ingest_file"])
    (doc.field? "ingest_file") s.ingestFile

theorem layered_of_load (h : load line env disk = .ok s)
    (hvalue : ∀ o, line.value? o = (flags.value? o <|> CommandLine.standIn? env o)) :
    ∃ doc, fileDocument disk line = .ok doc ∧ Layered flags env doc s := by
  obtain ⟨p, hcollect, hpartial⟩ := bind_eq_ok.mp h
  obtain ⟨doc, doc', q, hdoc, happly, hq, rfl⟩ := collect_eq_ok hcollect
  obtain ⟨hmanager, hlifecycle, haddress, hingest⟩ := ofPartial_eq_ok hpartial
  have hoption (o : ValueOption) (ho : o.variableName? = none) :
      line.value? o = flags.value? o := by
    rw [hvalue, CommandLine.standIn?, ho]
    cases flags.value? o <;> rfl
  have hbind : line.value? .httpBind =
      (flags.value? .httpBind <|> env.lookup "CHUNKDB_HTTP_BIND") := hvalue .httpBind
  refine ⟨doc, hdoc, ?_⟩
  exact {
    dataset := ⟨_, setBy_field happly decodesPlain_asText _ hq.dataset, by
      rw [hmanager, ← hoption .dataset rfl]; rfl⟩
    windowSeconds := ⟨_, setBy_field happly decodesPlain_asInteger none hq.windowSeconds, by
      rw [hmanager]; rfl⟩
    metricsDelay := ⟨_, setBy_field happly decodesPlain_asInteger none hq.metricsDelay, by
      rw [hlifecycle]; rfl⟩
    staleDelay := ⟨_, setBy_field happly decodesPlain_asInteger none hq.staleDelay, by
      rw [hlifecycle]; rfl⟩
    interval := ⟨_, setBy_field happly decodesPlain_asCount none hq.intervalSeconds, by
      rw [hlifecycle]
      cases hinterval : q.intervalSeconds <;>
        simp [PartialSettings.lifecycle, PartialSettings.withOptions, hinterval]⟩
    directory := ⟨_, setBy_field happly decodesPlain_asText _ hq.spillDir, by
      rw [hmanager, ← hoption .spillDir rfl]; rfl⟩
    compression := ⟨_, codecBy_field happly hq.compression, by rw [hmanager]; rfl⟩
    httpBind := ⟨_, setBy_field happly decodesPlain_asText _ hq.httpBind, by
      rw [← haddress, ← hbind]; rfl⟩
    ingestFile := by
      rw [hingest, ← hoption .ingestFile rfl]
      exact setBy_field happly decodesPlain_asText _ hq.ingestFile }

/-- How texts in the environment come through where there is no option: as they are, just if they
are the texts of the values that they are taken for. -/
structure KeepsTexts (flags : CommandLine) (env : List (String × String)) (s : DaemonSettings) :
    Prop where
  dataset : ∀ text, flags.value? .dataset = none → text? env [.key "dataset"] = some text →
    (s.manager.dataset = text ↔ KeptAsText text)
  directory : ∀ text, flags.value? .spillDir = none → text? env [.key "spill_dir"] = some text →
    (s.manager.form.directory = some (Path.ofText text) ↔ KeptAsText text)
  ingestFile : ∀ text, flags.value? .ingestFile = none → text? env [.key "ingest_file"] = some text →
    (s.ingestFile = some text ↔ KeptAsText text)

theorem Layered.keepsTexts (h : Layered flags env doc s) : KeepsTexts flags env s := by
  constructor
  · intro text hoption htext
    obtain ⟨a, ha, heq⟩ := h.dataset
    obtain ⟨b, rfl, hb⟩ := ha.text_iff hoption htext
    rw [heq]
    exact hb
  · intro text hoption htext
    obtain ⟨a, ha, heq⟩ := h.directory
    obtain ⟨b, rfl, hb⟩ := ha.text_iff hoption htext
    rw [heq, Option.map_some, Option.some_inj, ← hb]
    exact ⟨congrArg Path.text, congrArg Path.ofText⟩
  · intro text hoption htext
    obtain ⟨b, heq, hb⟩ := h.ingestFile.text_iff hoption htext
    rw [heq, Option.some_inj]
    exact hb

/-! ## Empty variables -/

/-- A variable stands in for an option that is absent. -/
def StandsIn (args : List String) (name : String) : Prop :=
  ∃ flags o, CommandLine.parseFrom {} none args = some (.run flags) ∧
    ValueOption.variableName? o = some name ∧ flags.value? o = none

/-- An empty variable that stands in for no option is like none. -/
theorem report_empty {name : String} (h : ¬ StandsIn args name)
    (before after : List (String × String)) :
    report args (before ++ (name, "") :: after) disk = report args (before ++ after) disk := by
  have hparse : CommandLine.parse? args (before ++ (name, "") :: after) =
      CommandLine.parse? args (before ++ after) := by
    refine CommandLine.parse?_congr fun flags o hflags habsent => ?_
    rw [CommandLine.standIn?, CommandLine.standIn?]
    refine Option.bind_congr fun other hother => ?_
    have hne : other ≠ name := fun heq => h ⟨flags, o, hflags, heq ▸ hother, habsent⟩
    rw [List.lookup_append, List.lookup_append, lookup_cons_eq, if_neg hne]
  have hload (line : CommandLine) : load line (before ++ (name, "") :: after) disk =
      load line (before ++ after) disk := by
    simp only [load, collect, apply_append_empty]
  simp only [report, hparse, hload]

/-- An empty text is no address. -/
theorem load_empty_httpBind (h : line.value? .httpBind = some "") :
    load line env disk ≠ .ok s := by
  intro hload
  obtain ⟨p, hcollect, hpartial⟩ := bind_eq_ok.mp hload
  obtain ⟨doc, doc', q, -, -, -, rfl⟩ := collect_eq_ok hcollect
  obtain ⟨-, -, haddress, -⟩ := ofPartial_eq_ok hpartial
  have htext : (q.withOptions line).address = "" := by
    rw [PartialSettings.address, PartialSettings.withOptions, h]
    rfl
  have hnone : SocketAddress.parse? "" = none := by decide +kernel
  rw [htext, hnone] at haddress
  cases haddress

/-- With an empty variable that stands in for an option no settings are accepted. -/
theorem report_standsIn {name : String} (h : StandsIn args name)
    (hfirst : env.lookup name = some "") (lines : List String) :
    report args env disk ≠ .ok lines := by
  obtain ⟨flags, o, hflags, hname, habsent⟩ := h
  have hempty : CommandLine.standIn? env o = some "" := by
    rw [CommandLine.standIn?, hname]
    exact hfirst
  intro hreport
  rw [report] at hreport
  split at hreport
  · cases hreport
  · next hparse =>
    rw [CommandLine.parse?, hflags] at hparse
    simp [Option.bind_eq_some_iff] at hparse
  · next line hparse =>
    obtain ⟨flags', hflags', -, hvalue⟩ := CommandLine.parse?_eq_run hparse
    rw [hflags, Option.some_inj, Invocation.run.injEq] at hflags'
    subst hflags'
    -- only two options have a variable
    cases o with
    | config =>
      rw [CommandLine.parse?, hflags] at hparse
      simp [CommandLine.addVariable_empty rfl habsent hempty] at hparse
    | httpBind =>
      have hbind : line.value? .httpBind = some "" := by
        rw [hvalue, habsent, hempty]
        rfl
      cases hload : load line env disk with
      | error fault =>
        rw [hload] at hreport
        cases hreport
      | ok s => exact load_empty_httpBind hbind hload
    | _ => cases hname

/-- The names of the settings that are a single value. -/
def settingNames : List String :=
  ["dataset", "http_bind", "chunk_duration_secs", "metrics_delay_secs", "stale_data_delay_secs",
    "lifecycle_interval_secs", "spill_dir", "ingest_file"]

/-- **Where settings come from.** A variable leads to a setting just if it has its name, with the
prefix and in any case. Each of the settings that are accepted is decided by the highest layer that
sets it: an option, a variable that is not empty, the settings file, or the default. A text from
the environment is kept if it is the text of the value that it is taken for, and only then. An
empty variable is like none, unless it stands in for an option that is absent; then nothing is
accepted. -/
theorem load_layers (args : List String) (env : List (String × String)) (disk : Disk) :
    (∀ key ∈ settingNames, ∀ name,
      pathOfName? name = some [.key key] ↔ Text.lower name = "chunkdb_" ++ key) ∧
    (∀ line s, CommandLine.parse? args env = some (.run line) → load line env disk = .ok s →
      ∃ flags doc, CommandLine.parseFrom {} none args = some (.run flags) ∧
        line.switches = flags.switches ∧
        line.value? .config = (flags.value? .config <|> env.lookup "CHUNKDB_CONFIG") ∧
        fileDocument disk line = .ok doc ∧ Layered flags env doc s ∧ KeepsTexts flags env s) ∧
    ∀ before name after, env = before ++ (name, "") :: after →
      (¬ StandsIn args name → report args env disk = report args (before ++ after) disk) ∧
      (StandsIn args name → env.lookup name = some "" → ∀ lines, report args env disk ≠ .ok lines) := by
  refine ⟨fun key hkey => pathOfName?_eq_name ?_, fun line s hparse hload => ?_, ?_⟩
  · have hnames : ∀ key ∈ settingNames, IsName key := by decide +kernel
    exact hnames key hkey
  · obtain ⟨flags, hflags, hswitches, hvalue⟩ := CommandLine.parse?_eq_run hparse
    obtain ⟨doc, hdoc, hlayered⟩ := layered_of_load hload hvalue
    exact ⟨flags, doc, hflags, hswitches, hvalue .config, hdoc, hlayered, hlayered.keepsTexts⟩
  · rintro before name after rfl
    exact ⟨fun h => report_empty h before after, report_standsIn⟩

/-- All four layers, with a text that is not kept and a variable that is empty. -/
theorem load_layers_sample :
    let args := ["--dataset", "d"]
    let set := [("CHUNKDB_DATASET", "e"), ("CHUNKDB_SPILL_DIR", "007"),
      ("ChunkDB_Metrics_Delay_Secs", "60"), ("CHUNKDB_COMPRESSION__LEVEL", "5")]
    let env := set ++ [("CHUNKDB_INGEST_FILE", "")]
    let disk : Disk := ⟨.ofList [(["chunkdbd.toml"], DiskNode.file 0)],
      .ofList [(0, "[compression]\ntype = \"zstd\"\nlevel = 3\n".toUTF8.data.toList)], 1⟩
    let flags : CommandLine := ⟨[], [(.dataset, "d")]⟩
    (∃ doc s, load flags env disk = .ok s ∧ Layered flags env doc s ∧
      s.manager = ⟨"d", 7200, some (.ofText "7"), .zstd 5⟩ ∧ ¬ KeptAsText "007") ∧
      report args env disk = report args set disk := by
  intro args set env disk flags
  obtain ⟨-, hlayers, hempty⟩ := load_layers args env disk
  have hparse : CommandLine.parse? args env = some (.run flags) := by decide +kernel
  have hmanager : (load flags env disk).map DaemonSettings.manager =
      .ok ⟨"d", 7200, some (.ofText "7"), .zstd 5⟩ := by
    decide +kernel
  have hnone : ¬ StandsIn args "CHUNKDB_INGEST_FILE" := by
    rintro ⟨-, o, -, hname, -⟩
    revert hname
    cases o <;> decide
  have htext : text? env [.key "spill_dir"] = some "007" := by decide +kernel
  cases hload : load flags env disk with
  | error fault =>
    rw [hload] at hmanager
    cases hmanager
  | ok s =>
    rw [hload] at hmanager
    have heq : s.manager = _ := Except.ok.inj hmanager
    obtain ⟨flags', doc, hflags, -, -, -, hlayered, hkeeps⟩ := hlayers flags s hparse hload
    have hsame : CommandLine.parseFrom {} none args = some (.run flags) := by decide +kernel
    obtain rfl : flags = flags' := by simpa using hsame.symm.trans hflags
    have hkept := hkeeps.directory "007" rfl htext
    rw [heq] at hkept
    exact ⟨⟨doc, s, rfl, hlayered, heq, fun h => absurd (hkept.mpr h) (by decide +kernel)⟩,
      (hempty set "CHUNKDB_INGEST_FILE" [] rfl).1 hnone⟩

/-- Items that are set one by one make a list, and a list without items has no last one. -/
example :
    (report ["--no-config"] [("CHUNKDB_COMPRESSION[1]", "3"), ("CHUNKDB_COMPRESSION[-2]", "zstd")]
      Disk.empty).map (·[6]?) = .ok (some "compression=zstd:3") ∧
    report ["--no-config"] [("CHUNKDB_COMPRESSION[-1]", "none")] Disk.empty = .error .stopped := by
  decide +kernel

/-- A dataset that is written like a number is lost, and an empty address is no address. -/
theorem report_loses_text :
    report ["--no-config"] [("CHUNKDB_DATASET", "007")] Disk.empty =
      .ok ["dataset=7", "chunk_duration_secs=7200", "metrics_delay_secs=900",
        "stale_data_delay_secs=21600", "lifecycle_interval_secs=60", "spill_dir=",
        "compression=none", "http_bind=127.0.0.1:8080", "ingest_file="] ∧
      report ["--no-config"] [("CHUNKDB_HTTP_BIND", "")] Disk.empty = .error (.badAddress "") ∧
      (report ["--no-config"] [] Disk.empty).isOk = true := by
  decide +kernel

end DaemonSettings

end TimeSeries
