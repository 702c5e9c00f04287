import HostInventory.Proofs.SnapshotSections
import HostInventory.Run

/-! The texts that a run leaves. A printed snapshot has a field or a block of lines for each section,
and the log has a line for each event that is shown. The names of the collectors need no escapes, so
they stand in these texts as they are. -/
namespace HostInventory

namespace Json

theorem bracketed_of_ne_nil {opening closing : String} {depth : Nat} {parts : List String}
    (filled : parts ≠ []) : bracketed opening closing depth parts =
      opening ++ "\n" ++ ",\n".intercalate (parts.map (indentation (depth + 1) ++ ·)) ++ "\n" ++
        indentation depth ++ closing := by
  cases parts with
  | nil => exact absurd rfl filled
  | cons part parts => rfl

theorem compactFields_eq (fields : List (String × Json)) :
    compactFields fields = fields.map fun e => quote e.1 ++ ":" ++ e.2.compact := by
  induction fields with
  | nil => rfl
  | cons e fields ih => rw [compactFields, ih, List.map_cons]

theorem prettyFields_eq (depth : Nat) (fields : List (String × Json)) :
    prettyFields depth fields =
      fields.map fun e => quote e.1 ++ ": " ++ e.2.prettyAt depth := by
  induction fields with
  | nil => rfl
  | cons e fields ih => rw [prettyFields, ih, List.map_cons]

end Json

namespace Text

/-- Whether a text stands unchanged in printed values and in log lines. -/
def Plain (text : String) : Prop := ∀ c ∈ text.toList, Json.escape c = [c] ∧ disarmChar c = [c]

instance (text : String) : Decidable (Plain text) :=
  List.decidableBAll (fun c => Json.escape c = [c] ∧ disarmChar c = [c]) text.toList

variable {text : String}

theorem Plain.quote_append (plain : Plain text) (more : String) :
    Json.quote (text ++ more) =
      "\"" ++ text ++ String.ofList (more.toList.flatMap Json.escape) ++ "\"" := by
  have same : text.toList.flatMap Json.escape = text.toList := by
    rw [List.flatMap_congr fun c mem => (plain c mem).1, List.flatMap_singleton']
  apply String.toList_injective
  simp [Json.quote, same]

theorem Plain.quote_eq (plain : Plain text) : Json.quote text = "\"" ++ text ++ "\"" := by
  have alone := plain.quote_append ""
  simpa using alone

theorem Plain.disarm_append (plain : Plain text) (more : String) :
    disarm (text ++ more) = text ++ disarm more := by
  have same : text.toList.flatMap disarmChar = text.toList := by
    rw [List.flatMap_congr fun c mem => (plain c mem).2, List.flatMap_singleton']
  apply String.toList_injective
  simp [disarm, same]

end Text

namespace Collector

theorem plain_of_mem_names : ∀ name ∈ names, Text.Plain name := by decide

theorem plain_bracketed : ∀ name ∈ names, Text.Plain ("[" ++ name ++ "] ") := by decide +kernel

/-- What the block of a section begins with. -/
def titles : List (String × String) := [
  ("cpu", "CPU:"), ("filesystem", "Filesystem:"), ("memory", "Memory:"), ("network", "Network:"),
  ("platform", "Platform:")]

end Collector

namespace Snapshot

/-- Whether the sections stand under names of collectors and the one of the processors is a record
of facts. -/
structure IsKnown (s : Snapshot) : Prop where
  names : ∀ name ∈ s.names, name ∈ Collector.names
  cpu : ∀ value, s.sections.get? "cpu" = some value → ∃ facts, value = Json.ofFacts facts

variable {s : Snapshot}

theorem mem_names_of_mem_entries {e : String × Json} (mem : e ∈ s.sections.entries) :
    e.1 ∈ s.names :=
  List.mem_map_of_mem mem

theorem quote_of_mem_entries (known : s.IsKnown) {e : String × Json}
    (mem : e ∈ s.sections.entries) : Json.quote e.1 = "\"" ++ e.1 ++ "\"" :=
  (Collector.plain_of_mem_names _ (known.names _ (mem_names_of_mem_entries mem))).quote_eq

theorem compactFields_entries (known : s.IsKnown) : Json.compactFields s.sections.entries =
    s.sections.entries.map fun e => "\"" ++ e.1 ++ "\":" ++ e.2.compact := by
  rw [Json.compactFields_eq]
  refine List.map_congr_left fun e mem => ?_
  apply String.toList_injective
  simp [quote_of_mem_entries known mem]

theorem prettyFields_entries (known : s.IsKnown) :
    (Json.prettyFields 1 s.sections.entries).map (Json.indentation 1 ++ ·) =
      s.sections.entries.map fun e => "  \"" ++ e.1 ++ "\": " ++ e.2.prettyAt 1 := by
  rw [Json.prettyFields_eq, List.map_map]
  refine List.map_congr_left fun e mem => ?_
  have indented : Json.indentation 1 = "  " := by decide
  apply String.toList_injective
  simp [quote_of_mem_entries known mem, indented]

theorem exists_title (known : s.IsKnown) {e : String × Json} (mem : e ∈ s.sections.entries) :
    ∃ title lines, (e.1, title) ∈ Collector.titles ∧ sectionLines e.1 e.2 = title :: lines := by
  obtain ⟨name, value⟩ := e
  by_cases processors : name = "cpu"
  · subst processors
    obtain ⟨facts, rfl⟩ := known.cpu value (OrderedMap.get?_eq_some_iff.2 mem)
    have titled : ("cpu", "CPU:") ∈ Collector.titles := by decide
    exact ⟨"CPU:", _, titled, sectionLines_cpu facts⟩
  · have capital : ∀ name ∈ Collector.names, name ≠ "cpu" →
        (name, Text.capitalize name ++ ":") ∈ Collector.titles := by
      decide +kernel
    exact ⟨_, _, capital name (known.names name (mem_names_of_mem_entries mem)) processors,
      sectionLines_of_outlined (.inl processors)⟩

end Snapshot

namespace Run

/-- How a printed text shows sections: in order, each one beginning with its name. -/
structure Prints (s : Settings) (sections : List (String × Json)) (output : String) : Prop where
  compact : s.format = .json → s.pretty = false → output =
    "\x7b" ++ ",".intercalate (sections.map fun e => "\"" ++ e.1 ++ "\":" ++ e.2.compact) ++ "\x7d\n"
  pretty : s.format = .json → s.pretty → sections ≠ [] → output =
    "\x7b\n" ++ ",\n".intercalate (sections.map fun e => "  \"" ++ e.1 ++ "\": " ++ e.2.prettyAt 1) ++
      "\n\x7d\n"
  empty : s.format = .json → s.pretty → sections = [] → output = "\x7b\x7d\n"
  text : s.format = .text →
    output = Text.unlines ("=== Host Facts ===" :: sections.flatMap Snapshot.block) ∧
      ∀ e ∈ sections, ∃ title lines, (e.1, title) ∈ Collector.titles ∧
        Snapshot.block e = "" :: title :: lines

theorem prints_snapshotText (s : Settings) {snapshot : Snapshot} (known : snapshot.IsKnown) :
    Prints s snapshot.sections.entries (snapshotText s snapshot) := by
  constructor
  · intro json narrow
    rw [snapshotText, json, ← Snapshot.compactFields_entries known]
    simp only [Snapshot.print, narrow, Snapshot.toJson, Json.ofMap, Json.compact]
    apply String.toList_injective
    simp
  · intro json wide filled
    have parts : Json.prettyFields 1 snapshot.sections.entries ≠ [] := by
      simpa [Json.prettyFields_eq] using filled
    have margin : Json.indentation 0 = "" := by decide
    rw [snapshotText, json, ← Snapshot.prettyFields_entries known]
    simp only [Snapshot.print, wide, Snapshot.toJson, Json.ofMap, Json.pretty, Json.prettyAt]
    apply String.toList_injective
    simp [Json.bracketed_of_ne_nil parts, margin]
  · intro json wide none
    rw [snapshotText, json]
    simp only [Snapshot.print, wide, Snapshot.toJson, Json.ofMap, Json.pretty, Json.prettyAt, none]
    rfl
  · intro text
    refine ⟨by rw [snapshotText, text]; rfl, fun e mem => ?_⟩
    obtain ⟨title, lines, titled, block⟩ := Snapshot.exists_title known mem
    exact ⟨title, lines, titled, congrArg (List.cons "") block⟩

def warningLine (l : Log) (name : String) (why : Failure) : String :=
  if l.json then
    "\x7b\"timestamp\":" ++ Json.quote l.clock.now ++
      ",\"level\":\"WARN\",\"fields\":\x7b\"message\":\"[" ++ name ++ "] " ++
      String.ofList (why.message.toList.flatMap Json.escape) ++ "\"\x7d\x7d"
  else l.clock.now ++ "  WARN [" ++ name ++ "] " ++ Text.disarm why.message

theorem line_failed (l : Log) {name : String} (known : name ∈ Collector.names) (why : Failure) :
    l.line (.failed name why) = warningLine l name why := by
  have plain := Collector.plain_bracketed name known
  have level : (Event.failed name why).level = .warn := rfl
  have text : (Event.failed name why).message l.clock.elapsed = "[" ++ name ++ "] " ++ why.message :=
    rfl
  apply String.toList_injective
  rw [Log.line, warningLine, Log.message, level, text, plain.disarm_append]
  by_cases json : l.json
  · have quoted : Json.quote Level.warn.name = "\"" ++ "WARN" ++ "\"" :=
      Text.Plain.quote_eq (by decide +kernel)
    simp only [if_pos json, quoted, plain.quote_append why.message]
    simp
  · have column : Log.levelColumn .warn = " WARN" := by decide +kernel
    simp only [if_neg json, column]
    simp

end Run

end HostInventory
