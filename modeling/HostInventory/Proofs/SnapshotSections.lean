import HostInventory.Proofs.MapEntries
import HostInventory.Snapshot

/-! The sections of a snapshot. A collector changes the section of its own name and no other, and
a record of facts that became a section is read back from it unchanged. -/
namespace HostInventory

theorem Json.mapM_texts (entries : List (String × String)) :
    ((entries.map fun e => (e.1, Json.text e.2)).mapM fun e =>
      (Json.text? e.2).map fun value => (e.1, value)) = some entries := by
  induction entries with
  | nil => rfl
  | cons e rest ih =>
    rw [List.map_cons, List.mapM_cons, ih]
    rfl

theorem Json.facts?_ofFacts (f : OrderedMap String String) : (Json.ofFacts f).facts? = some f := by
  rw [Json.ofFacts, Json.facts?, Json.mapM_texts, Option.map_some, OrderedMap.ofList_entries]

namespace Snapshot

variable {record : Machine → List Event → Machine} {r : SystemRoot}

theorem sections_step (p : Progress) (c : Collector) :
    (step record r p c).sections = addSection p.sections c.name (c.run p.machine r).result :=
  rfl

theorem get?_addSection_of_ne {sections : OrderedMap String Json} {name other : String}
    (ne : other ≠ name) (result : Except Failure Json) :
    (addSection sections other result).get? name = sections.get? name := by
  cases result with
  | error why => rfl
  | ok value => rw [addSection, OrderedMap.get?_insert, if_neg ne]

theorem get?_foldl_step_of_ne {name : String} {collectors : List Collector}
    (others : ∀ c ∈ collectors, c.name ≠ name) (p : Progress) :
    (collectors.foldl (step record r) p).sections.get? name = p.sections.get? name := by
  induction collectors generalizing p with
  | nil => rfl
  | cons c rest ih =>
    rw [List.foldl_cons, ih fun d hd => others d (List.mem_cons_of_mem c hd), sections_step,
      get?_addSection_of_ne (others c List.mem_cons_self)]

theorem get?_run_of_head {c : Collector} {collectors : List Collector} {selection : Selection}
    {m : Machine} {value : Json} (selected : selection.includes c.name)
    (others : ∀ d ∈ collectors, d.name ≠ c.name) (result : (c.run m r).result = .ok value) :
    (run record (c :: collectors) r selection m).sections.get? c.name = some value := by
  have others' : ∀ d ∈ collectors.filter fun d => selection.includes d.name, d.name ≠ c.name :=
    fun d hd => others d (List.mem_filter.1 hd).1
  rw [run, List.filter_cons, if_pos selected, List.foldl_cons, get?_foldl_step_of_ne others',
    sections_step, result, addSection, OrderedMap.get?_insert, if_pos rfl]

def block (e : String × Json) : List String := "" :: sectionLines e.1 e.2

theorem summaryLines_of_get? {s : Snapshot} {name : String} {value : Json}
    (found : s.sections.get? name = some value) :
    ∃ before after, s.sections.entries = before ++ (name, value) :: after ∧
      s.summaryLines = "=== Host Facts ===" ::
        (before.flatMap block ++ "" :: sectionLines name value ++ after.flatMap block) := by
  obtain ⟨before, after, entries⟩ := List.append_of_mem (OrderedMap.get?_eq_some_iff.1 found)
  refine ⟨before, after, entries, ?_⟩
  rw [summaryLines, entries, List.flatMap_append, List.flatMap_cons, ← List.append_assoc]
  rfl

theorem sectionLines_of_outlined {name : String} {value : Json}
    (outlined : name ≠ "cpu" ∨ value.facts? = none) :
    sectionLines name value = (Text.capitalize name ++ ":") :: value.outline 1 := by
  rw [sectionLines]
  rcases outlined with other | none
  · rw [if_neg other]
  · rw [none]
    exact ite_self _

theorem exists_summaryLines_of_outlined {s : Snapshot} {name : String} {value : Json}
    (found : s.sections.get? name = some value) (outlined : name ≠ "cpu" ∨ value.facts? = none) :
    ∃ before after, s.summaryLines =
      before ++ (Text.capitalize name ++ ":") :: value.outline 1 ++ after := by
  obtain ⟨front, back, -, summary⟩ := summaryLines_of_get? found
  refine ⟨"=== Host Facts ===" :: front.flatMap block ++ [""], back.flatMap block, ?_⟩
  rw [summary, sectionLines_of_outlined outlined]
  simp only [List.cons_append, List.append_assoc, List.nil_append]

theorem sectionLines_cpu (facts : Facts) :
    sectionLines "cpu" (Json.ofFacts facts) = (Cpu.Summary.ofFacts facts).lines := by
  rw [sectionLines, if_pos rfl, Json.facts?_ofFacts]

end Snapshot

end HostInventory
