import HostInventory.Proofs.DecimalText
import HostInventory.Proofs.SnapshotSections
import HostInventory.Proofs.TextPieces
import Mathlib.Data.Set.Card

/-! The nodes of a structured value and the lines of its outline. A path of positions leads to each
node inside a value, and in ascending order of paths a node comes before what is inside it. The
outline has the nodes in this order, one line for each. -/
namespace HostInventory.Json

inductive Label
  | top
  | field (name : String)
  | item (position : Nat)
  deriving DecidableEq

def isContainer : Json → Bool
  | .list _ | .object _ => true
  | _ => false

def children : Json → List (Label × Json)
  | .object fields => fields.map fun e => (.field e.1, e.2)
  | .list items => items.zipIdx.map fun e => (.item e.2, e.1)
  | _ => []

def within {α β : Type} (inner : β → List Nat → Option α) (es : List β) : List Nat → Option α
  | [] => none
  | i :: path => es[i]?.bind fun e => inner e path

/-- The node that a path of positions leads to, from a value and what it stands under. -/
def entryAt? (e : Label × Json) : List Nat → Option (Label × Json)
  | [] => some e
  | i :: path => e.2.children[i]?.bind fun inner => entryAt? inner path

/-- The nodes of a value: all that is inside it, or the value itself if it stands alone. -/
def nodeAt? (v : Json) : List Nat → Option (Label × Json)
  | [] => if v.isContainer then none else some (.top, v)
  | i :: path => entryAt? (.top, v) (i :: path)

def heading : Label × Json → String
  | (.top, v) => v.scalar
  | (.field name, v) => if v.isContainer then name ++ ":" else name ++ ": " ++ v.scalar
  | (.item i, v) => if v.isContainer then "[" ++ toString i ++ "]" else "- " ++ v.scalar

/-- All that a function on paths gives, each with its path, in ascending order of the paths. -/
structure Enumerates {α : Type} (at? : List Nat → Option α) (nodes : List (List Nat × α)) :
    Prop where
  ascending : nodes.Pairwise fun m n => m.1 < n.1
  mem_iff : ∀ path a, (path, a) ∈ nodes ↔ at? path = some a

/-- The lines for what is inside a value. -/
def inside (depth : Nat) (v : Json) : List String := if v.isContainer then v.outline depth else []

section Children

theorem sizeOf_lt_of_mem_children {v : Json} {e : Label × Json} (mem : e ∈ v.children) :
    sizeOf e.2 < sizeOf v := by
  cases v with
  | object fields =>
    obtain ⟨⟨name, value⟩, field, rfl⟩ := List.mem_map.1 mem
    have smaller := List.sizeOf_lt_of_mem field
    simp only [Prod.mk.sizeOf_spec, object.sizeOf_spec] at smaller ⊢
    omega
  | list items =>
    obtain ⟨⟨value, i⟩, item, rfl⟩ := List.mem_map.1 mem
    have smaller : sizeOf value < sizeOf items :=
      List.sizeOf_lt_of_mem (List.fst_mem_of_mem_zipIdx item)
    simp only [list.sizeOf_spec]
    omega
  | _ => cases mem

theorem ne_top_of_mem_children {v : Json} {e : Label × Json} (mem : e ∈ v.children) :
    e.1 ≠ .top := by
  cases v with
  | object fields =>
    obtain ⟨field, -, rfl⟩ := List.mem_map.1 mem
    exact Label.noConfusion
  | list items =>
    obtain ⟨item, -, rfl⟩ := List.mem_map.1 mem
    exact Label.noConfusion
  | _ => cases mem

theorem child_induction {P : Json → Prop} (step : ∀ v, (∀ e ∈ v.children, P e.2) → P v) (v : Json) :
    P v :=
  step v fun e mem =>
    have := sizeOf_lt_of_mem_children mem
    child_induction step e.2
termination_by sizeOf v

theorem outlineFields_eq (depth : Nat) (fields : List (String × Json)) :
    outlineFields depth fields = (fields.map fun e => (Label.field e.1, e.2)).flatMap fun e =>
      (indentation depth ++ heading e) :: inside (depth + 1) e.2 := by
  induction fields with
  | nil => rw [outlineFields, List.map_nil, List.flatMap_nil]
  | cons e fields ih =>
    obtain ⟨name, value⟩ := e
    rw [List.map_cons, List.flatMap_cons, ← ih]
    cases value <;> simp [outlineFields, heading, inside, isContainer, outline, String.append_assoc]

theorem outlineItems_eq (depth start : Nat) (items : List Json) :
    outlineItems depth start items =
      ((items.zipIdx start).map fun e => (Label.item e.2, e.1)).flatMap fun e =>
        (indentation depth ++ heading e) :: inside (depth + 1) e.2 := by
  induction items generalizing start with
  | nil => rw [outlineItems, List.zipIdx_nil, List.map_nil, List.flatMap_nil]
  | cons value items ih =>
    rw [List.zipIdx_cons, List.map_cons, List.flatMap_cons, ← ih]
    cases value <;> simp [outlineItems, heading, inside, isContainer, outline, String.append_assoc]

theorem inside_eq (depth : Nat) (v : Json) :
    v.inside depth = v.children.flatMap fun e =>
      (indentation depth ++ heading e) :: inside (depth + 1) e.2 := by
  cases v with
  | object fields => exact outlineFields_eq depth fields
  | list items => exact outlineItems_eq depth 0 items
  | _ => rfl

end Children

section Order

variable {α β : Type} {inner : β → List Nat → Option α} {nodes : β → List (List Nat × α)}

theorem enumerates_within {es : List β} (each : ∀ e ∈ es, Enumerates (inner e) (nodes e)) :
    Enumerates (within inner es)
      (es.zipIdx.flatMap fun e => (nodes e.1).map fun n => (e.2 :: n.1, n.2)) where
  ascending := by
    refine List.pairwise_flatMap.2 ⟨fun e mem => ?_, ?_⟩
    · have known := List.fst_mem_of_mem_zipIdx mem
      exact List.pairwise_map.2 ((each _ known).ascending.imp fun below =>
        List.cons_lt_cons_iff.2 (.inr ⟨rfl, below⟩))
    · have positions : es.zipIdx.Pairwise fun e f => e.2 < f.2 := by
        rw [← List.pairwise_map, List.zipIdx_map_snd]
        exact List.pairwise_lt_range' 1
      refine positions.imp fun before => ?_
      rintro _ m n' n
      obtain ⟨m, -, rfl⟩ := List.mem_map.1 m
      obtain ⟨n, -, rfl⟩ := List.mem_map.1 n
      exact List.cons_lt_cons_iff.2 (.inl before)
  mem_iff path a := by
    rw [List.mem_flatMap]
    constructor
    · rintro ⟨⟨e, i⟩, mem, mem'⟩
      obtain ⟨⟨path', a'⟩, found, same⟩ := List.mem_map.1 mem'
      obtain ⟨rfl, rfl⟩ := Prod.mk.inj same
      have here := List.mk_mem_zipIdx_iff_getElem?.1 mem
      rw [within, here, Option.bind_some]
      exact ((each e (List.mem_of_getElem? here)).mem_iff path' a').1 found
    · intro found
      cases path with
      | nil => cases found
      | cons i path =>
        obtain ⟨e, here, found⟩ := Option.bind_eq_some_iff.1 found
        refine ⟨(e, i), List.mk_mem_zipIdx_iff_getElem?.2 here, List.mem_map.2 ⟨(path, a), ?_, rfl⟩⟩
        exact ((each e (List.mem_of_getElem? here)).mem_iff path a).2 found

theorem enumerates_entryAt? {e : Label × Json} {nodes : List (List Nat × Label × Json)}
    (inside : Enumerates (within entryAt? e.2.children) nodes) :
    Enumerates (entryAt? e) (([], e) :: nodes) where
  ascending := by
    refine List.pairwise_cons.2 ⟨?_, inside.ascending⟩
    rintro ⟨path, a⟩ mem
    have found := (inside.mem_iff path a).1 mem
    cases path with
    | nil => cases found
    | cons i path => exact List.nil_lt_cons i path
  mem_iff path a := by
    rw [List.mem_cons, inside.mem_iff]
    cases path with
    | nil => simp [entryAt?, within, eq_comm]
    | cons i path => simp [entryAt?, within]

theorem Enumerates.length_eq {at? : List Nat → Option α} {nodes : List (List Nat × α)}
    (enumerates : Enumerates at? nodes) : nodes.length = {path | (at? path).isSome}.ncard := by
  have distinct : (nodes.map Prod.fst).Nodup := by
    refine List.pairwise_map.2 (enumerates.ascending.imp fun {m n} below same => ?_)
    rw [same] at below
    exact List.lt_irrefl n.1 below
  have members : {path | (at? path).isSome} = ((nodes.map Prod.fst).toFinset : Set (List Nat)) := by
    ext path
    rw [List.coe_toFinset, Set.mem_ofPred_eq, Set.mem_ofPred_eq, Option.isSome_iff_exists,
      List.mem_map]
    constructor
    · rintro ⟨a, found⟩
      exact ⟨(path, a), (enumerates.mem_iff path a).2 found, rfl⟩
    · rintro ⟨⟨_, a⟩, mem, rfl⟩
      exact ⟨a, (enumerates.mem_iff _ a).1 mem⟩
  rw [members, Set.ncard_coe_finset, List.toFinset_card_of_nodup distinct, List.length_map]

end Order

section Lines

def nodeLine (depth : Nat) (n : List Nat × Label × Json) : String :=
  indentation (depth + (n.1.length - 1)) ++ heading n.2

theorem Enumerates.ne_nil {es : List (Label × Json)} {nodes : List (List Nat × Label × Json)}
    (inside : Enumerates (within entryAt? es) nodes) {n : List Nat × Label × Json}
    (mem : n ∈ nodes) : n.1 ≠ [] := by
  obtain ⟨path, a⟩ := n
  rintro rfl
  cases (inside.mem_iff [] a).1 mem

theorem nodeLine_cons {n : List Nat × Label × Json} (below : n.1 ≠ []) (depth i : Nat) :
    nodeLine depth (i :: n.1, n.2) = nodeLine (depth + 1) n := by
  have filled := List.length_pos_iff.2 below
  have level : depth + ((i :: n.1).length - 1) = depth + 1 + (n.1.length - 1) := by
    rw [List.length_cons]
    omega
  rw [nodeLine, nodeLine, level]

/-- Nodes and lines are made alike: those of the values directly inside, each with what is inside it
after it and one level deeper. -/
theorem exists_nodes_inside (v : Json) :
    ∃ nodes, Enumerates (within entryAt? v.children) nodes ∧
      ∀ depth, v.inside depth = nodes.map (nodeLine depth) := by
  induction v using child_induction with
  | step v ih =>
    choose! nodes enumerates lines using ih
    have each : ∀ e ∈ v.children, Enumerates (entryAt? e) (([], e) :: nodes e) :=
      fun e mem => enumerates_entryAt? (enumerates e mem)
    refine ⟨_, enumerates_within each, fun depth => ?_⟩
    rw [inside_eq, List.map_flatMap]
    -- The nodes are made from the children and their positions, the lines from the children alone.
    nth_rewrite 1 [← List.zipIdx_map_fst 0 v.children]
    rw [List.flatMap_map]
    refine List.flatMap_congr ?_
    rintro ⟨e, i⟩ mem
    have known : e ∈ v.children := List.fst_mem_of_mem_zipIdx mem
    have deeper : (nodes e).map (nodeLine (depth + 1)) =
        (nodes e).map fun n => nodeLine depth (i :: n.1, n.2) :=
      List.map_congr_left fun n mem =>
        (nodeLine_cons ((enumerates e known).ne_nil mem) depth i).symm
    rw [lines e known, deeper, List.map_map, List.map_cons]
    rfl

theorem children_of_scalar {v : Json} (alone : ¬v.isContainer) : v.children = [] := by
  cases v <;> first | rfl | exact absurd rfl alone

theorem outline_of_scalar {v : Json} (alone : ¬v.isContainer) (depth : Nat) :
    v.outline depth = [indentation depth ++ v.scalar] := by
  cases v <;> first | rfl | exact absurd rfl alone

theorem exists_nodes_outline (v : Json) :
    ∃ nodes, Enumerates v.nodeAt? nodes ∧ ∀ depth, v.outline depth = nodes.map (nodeLine depth) := by
  by_cases container : v.isContainer
  · obtain ⟨nodes, enumerates, lines⟩ := exists_nodes_inside v
    have same : v.nodeAt? = within entryAt? v.children := by
      funext path
      cases path with
      | nil => simp [nodeAt?, within, container]
      | cons i path => rfl
    refine ⟨nodes, same ▸ enumerates, fun depth => ?_⟩
    rw [← lines, inside, if_pos container]
  · have root : v.nodeAt? [] = some (.top, v) := if_neg container
    have further (i : Nat) (path : List Nat) : v.nodeAt? (i :: path) = none := by
      simp [nodeAt?, entryAt?, children_of_scalar container]
    refine ⟨[([], .top, v)], ⟨List.pairwise_singleton _ _, fun path a => ?_⟩, fun depth => ?_⟩
    · cases path with
      | nil => simp [root, eq_comm]
      | cons i path => simp [further]
    · rw [outline_of_scalar container]
      rfl

end Lines

section LineFeeds

theorem newline_not_mem_toDigits (n : Nat) : '\n' ∉ Nat.toDigits 10 n :=
  Numeral.not_mem_toDigits (by decide) n

theorem newline_not_mem_toString (n : Int) : '\n' ∉ (toString n).toList := by
  cases n with
  | ofNat n =>
    have text : (toString (Int.ofNat n)).toList = Nat.toDigits 10 n := by simp [toString, Int.repr]
    rw [text]
    exact newline_not_mem_toDigits n
  | negSucc n =>
    have text : (toString (Int.negSucc n)).toList = '-' :: Nat.toDigits 10 (n + 1) := by
      simp [toString, Int.repr]
    rw [text, List.mem_cons, not_or]
    exact ⟨by decide, newline_not_mem_toDigits _⟩

theorem newline_not_mem_pointed {digits : List Char} (plain : '\n' ∉ digits) (e : Int) :
    '\n' ∉ (Binary64.pointed digits e).toList := by
  have front (n : Nat) : '\n' ∉ digits.take n := fun mem => plain (List.mem_of_mem_take mem)
  have back (n : Nat) : '\n' ∉ digits.drop n := fun mem => plain (List.mem_of_mem_drop mem)
  have exponent := newline_not_mem_toString (digits.length + e - 1)
  unfold Binary64.pointed
  dsimp only
  split_ifs
  · simp [plain, List.mem_replicate]
  · simp [front, back]
  · simp [plain, List.mem_replicate]
  all_goals
    rw [String.toList_append, String.toList_append, String.toList_ofList]
    split <;> simp_all

theorem newline_not_mem_print (n : JsonNumber) : '\n' ∉ n.print.toList := by
  cases n with
  | integer n => exact newline_not_mem_toString n
  | real x =>
    have digits (n : Nat) (e : Int) := newline_not_mem_pointed (newline_not_mem_toDigits n) e
    rw [JsonNumber.print, Binary64.shortestText]
    split
    · decide
    · decide
    · dsimp only
      split_ifs <;> simp [digits]

structure Unbroken (v : Json) : Prop where
  names : ∀ path name value, v.nodeAt? path = some (.field name, value) → '\n' ∉ name.toList
  texts : ∀ path label text, v.nodeAt? path = some (label, .text text) → '\n' ∉ text.toList

theorem newline_not_mem_indentation (depth : Nat) : '\n' ∉ (indentation depth).toList := by
  simp [indentation, List.mem_replicate]

theorem newline_not_mem_scalar {v : Json} (alone : ¬v.isContainer)
    (text : ∀ s, v = .text s → '\n' ∉ s.toList) : '\n' ∉ v.scalar.toList := by
  cases v with
  | null => decide
  | bool b => cases b <;> decide
  | number n => exact newline_not_mem_print n
  | text s => exact text s rfl
  | list items => exact absurd rfl alone
  | object fields => exact absurd rfl alone

theorem label_ne_top {e found : Label × Json} {path : List Nat} (labelled : e.1 ≠ .top)
    (reached : entryAt? e path = some found) : found.1 ≠ .top := by
  induction path generalizing e with
  | nil =>
    cases reached
    exact labelled
  | cons i path ih =>
    obtain ⟨inner, here, reached⟩ := Option.bind_eq_some_iff.1 reached
    exact ih (ne_top_of_mem_children (List.mem_of_getElem? here)) reached

theorem newline_not_mem_heading {v : Json} (unbroken : v.Unbroken) {path : List Nat}
    {e : Label × Json} (found : v.nodeAt? path = some e) : '\n' ∉ (heading e).toList := by
  obtain ⟨label, value⟩ := e
  have scalar (alone : ¬value.isContainer) : '\n' ∉ value.scalar.toList := by
    refine newline_not_mem_scalar alone fun s same => ?_
    rw [same] at found
    exact unbroken.texts path label s found
  cases label with
  | top =>
    cases path with
    | nil =>
      obtain ⟨alone, same⟩ := by simpa [nodeAt?] using found
      exact scalar (by simpa [← same] using alone)
    | cons i path =>
      obtain ⟨inner, here, reached⟩ := Option.bind_eq_some_iff.1 found
      exact absurd rfl
        (label_ne_top (ne_top_of_mem_children (List.mem_of_getElem? here)) reached)
  | field name =>
    have named := unbroken.names path name value found
    rw [heading]
    split
    · simp [named]
    · rename_i alone
      simp [named, scalar alone]
  | item i =>
    rw [heading]
    split
    · simp [newline_not_mem_toDigits i]
    · rename_i alone
      simp [scalar alone]

theorem lines_outline {v : Json} (unbroken : v.Unbroken) (depth : Nat) :
    Text.lines (Text.unlines (v.outline depth)).toList =
      (v.outline depth).map String.toList ++ [[]] := by
  obtain ⟨nodes, enumerates, lines⟩ := exists_nodes_outline v
  refine Text.lines_unlines fun line mem => ?_
  rw [lines] at mem
  obtain ⟨⟨path, e⟩, node, rfl⟩ := List.mem_map.1 mem
  have text := newline_not_mem_heading unbroken ((enumerates.mem_iff path e).1 node)
  rw [nodeLine, String.toList_append, List.mem_append, not_or]
  exact ⟨newline_not_mem_indentation _, text⟩

end LineFeeds

/-- An outline has a line for each node of a value and no other, in ascending order of their paths,
and without line feeds in its texts and names they are the lines of what is printed. In a summary it
stands below the title of its section. -/
theorem outline_lists_nodes (v : Json) (depth : Nat) :
    (∃ nodes, Enumerates v.nodeAt? nodes ∧ v.outline depth = nodes.map fun n =>
      indentation (depth + (n.1.length - 1)) ++ heading n.2) ∧
    (v.outline depth).length = {path | (v.nodeAt? path).isSome}.ncard ∧
    (v.isContainer → v.children = [] → v.outline depth = []) ∧
    (v.Unbroken → Text.lines (Text.unlines (v.outline depth)).toList =
      (v.outline depth).map String.toList ++ [[]]) ∧
    ∀ (s : Snapshot) (name : String), s.sections.get? name = some v →
      name ≠ "cpu" ∨ v.facts? = none → ∃ before after, s.summaryLines =
        before ++ (Text.capitalize name ++ ":") :: v.outline 1 ++ after := by
  obtain ⟨nodes, enumerates, lines⟩ := exists_nodes_outline v
  refine ⟨⟨nodes, enumerates, lines depth⟩, ?_, ?_, fun unbroken => lines_outline unbroken depth,
    fun _ _ => Snapshot.exists_summaryLines_of_outlined⟩
  · rw [lines, List.length_map, enumerates.length_eq]
  · intro container empty
    have none := inside_eq depth v
    rwa [empty, inside, if_pos container] at none

def nestedList : Json := .list [.text "root", .object []]

def nestedValue : Json := .object [("disk", nestedList), ("rate", .number (.integer (-5)))]

theorem outline_nestedValue :
    nestedValue.outline 1 = ["  disk:", "    - root", "    [1]", "  rate: -5"] ∧
    nestedValue.Unbroken ∧
    Text.lines (Text.unlines (nestedValue.outline 1)).toList =
      (nestedValue.outline 1).map String.toList ++ [[]] := by
  have reached : ∀ path e, nestedValue.nodeAt? path = some e →
      e ∈ [(.field "disk", nestedList), (.item 0, .text "root"), (.item 1, .object []),
        (.field "rate", .number (.integer (-5)))] := by
    rintro (_ | ⟨_ | _ | i, _ | ⟨_ | _ | j, _ | ⟨k, path⟩⟩⟩) e found <;>
      simp_all [nestedValue, nestedList, nodeAt?, entryAt?, children, isContainer]
  have unbroken : nestedValue.Unbroken := by
    constructor
    · intro path name value found
      have node := reached path _ found
      simp only [List.mem_cons, List.not_mem_nil, or_false, Prod.mk.injEq, Label.field.injEq,
        reduceCtorEq, false_and, false_or] at node
      rcases node with ⟨rfl, -⟩ | ⟨rfl, -⟩ <;> decide
    · intro path label s found
      have node := reached path _ found
      simp only [List.mem_cons, List.not_mem_nil, or_false, Prod.mk.injEq, nestedList, text.injEq,
        reduceCtorEq, and_false, false_or] at node
      rw [node.2]
      decide
  obtain ⟨-, -, -, lines, -⟩ := outline_lists_nodes nestedValue 1
  refine ⟨?_, unbroken, lines unbroken⟩
  decide +kernel

end HostInventory.Json
