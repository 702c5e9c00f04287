import HostInventory.Proofs.CollectorSources
import HostInventory.Proofs.ConsultedFiles

/-! Trees that differ at a place and below it. A path is read with the same result in both if none
of these places is looked at on its way. Where no link and no step upwards is on the way, only the
place that the path names and the directories above it are. -/
namespace HostInventory

namespace FileTree

def SameOutside (location : Location) (t t' : FileTree) : Prop :=
  ∀ place, ¬location <:+ place → t'.node? place = t.node? place

variable {t t' : FileTree} {location : Location}

theorem mem_of_find?_eq_some {place : Location} {node : Node} {nodes : List (Location × Node)}
    (found : find? place nodes = some node) : (place, node) ∈ nodes := by
  induction nodes with
  | nil => cases found
  | cons e rest ih =>
    rw [find?] at found
    split at found
    · rename_i here
      obtain rfl := Option.some.inj found
      rw [← beq_iff_eq.1 here]
      exact List.mem_cons_self
    · exact List.mem_cons_of_mem e (ih found)

theorem sameOutside_put (t : FileTree) (below : location ≠ []) (node : Node) :
    SameOutside location t (t.put location node) := by
  intro place outside
  have other : place ≠ location := by
    rintro rfl
    exact outside List.suffix_rfl
  rw [node?_put t location place node below, if_neg other]

section Unchanged

variable {dir : Location} {names : List String}

theorem follow_eq_of_passed
    (same : ∀ place ∈ t.passed dir names, t'.node? place = t.node? place) :
    t'.follow .find dir names = t.follow .find dir names := by
  fun_induction passed t dir names with
  | case1 dir => rfl
  | case2 dir name rest stays ih => simpa only [follow, if_pos stays] using ih same
  | case3 dir rest _ ih => simpa [follow] using ih same
  | case4 dir name rest moves down long => simp [follow, moves, down, long]
  | case5 dir name rest moves down fits found ih =>
    obtain ⟨here, further⟩ := List.forall_mem_cons.1 same
    simp [follow, moves, down, fits, here, found, ih further]
  | case6 dir name rest moves down fits found =>
    have here := same _ List.mem_cons_self
    rcases object : t.node? (name :: dir) with _ | content | _ | target
    · simp [follow, moves, down, fits, here, object]
    · simp [follow, moves, down, fits, here, object]
    · exact absurd object found
    · simp [follow, moves, down, fits, here, object]

theorem walk_eq_of_walked {links : Nat}
    (same : ∀ place ∈ t.walked links dir names, t'.node? place = t.node? place) :
    t'.walk .find links dir names = t.walk .find links dir names := by
  fun_induction walked t links dir names with
  | case1 links dir names ih =>
    obtain ⟨first, further⟩ := List.forall_mem_append.1 same
    unfold walk
    rw [follow_eq_of_passed first]
    rcases reached : t.follow .find dir names with _ | _ | ⟨dir', target, rest⟩
    · rfl
    · rfl
    · cases links with
      | zero => rfl
      | succ links =>
        rw [reached] at further
        exact ih dir' target rest further

theorem read_eq_of_visited {path : Path}
    (same : ∀ place ∈ t.visited dir path, t'.node? place = t.node? place) :
    t'.read dir path = t.read dir path := by
  have reached : t'.locate .find dir path = t.locate .find dir path := by
    unfold visited at same
    unfold locate
    by_cases bad : '\x00' ∈ path.text.toList ∨ maxPath < path.text.utf8ByteSize ∨ path.text = ""
    · rcases bad with nul | long | blank
      · rw [if_pos nul, if_pos nul]
      · rw [if_pos long, if_pos long]
      · simp only [if_pos blank]
    · rw [if_neg bad] at same
      rw [walk_eq_of_walked same]
  rw [read, read, reached]

end Unchanged

section Plain

/-- Where names lead from a directory if none of them is a link. -/
def plainly (dir : Location) (names : List String) : Location :=
  names.foldl (fun location name =>
    if name = "" ∨ name = "." then location
    else if name = ".." then location.tail
    else name :: location) dir

theorem plainLocation_eq (dir : Location) (path : Path) :
    plainLocation dir path = plainly (origin dir path.text) path.pieces := rfl

theorem plainly_append (dir : Location) (names names' : List String) :
    plainly dir (names ++ names') = plainly (plainly dir names) names' :=
  List.foldl_append

variable {dir : Location} {names : List String}

theorem suffix_plainly (down : ".." ∉ names) (dir : Location) : dir <:+ plainly dir names := by
  induction names generalizing dir with
  | nil => exact List.suffix_rfl
  | cons name rest ih =>
    obtain ⟨first, down⟩ := not_or.1 (List.mem_cons.not.1 down)
    rw [plainly, List.foldl_cons, if_neg (Ne.symm first), ← plainly]
    split
    · exact ih down dir
    · exact (List.suffix_cons name dir).trans (ih down (name :: dir))

theorem suffix_of_mem_passed (down : ".." ∉ names) {place : Location}
    (mem : place ∈ t.passed dir names) : place <:+ plainly dir names := by
  fun_induction passed t dir names with
  | case1 dir => cases mem
  | case2 dir name rest stays ih =>
    rw [plainly, List.foldl_cons, if_pos stays]
    exact ih (List.not_mem_of_not_mem_cons down) mem
  | case3 dir rest => exact absurd List.mem_cons_self down
  | case4 => cases mem
  | case5 dir name rest moves up fits found ih =>
    have further := List.not_mem_of_not_mem_cons down
    rw [plainly, List.foldl_cons, if_neg moves, if_neg up]
    rcases List.mem_cons.1 mem with rfl | mem
    · exact suffix_plainly further (name :: dir)
    · exact ih further mem
  | case6 dir name rest moves up fits found =>
    rw [plainly, List.foldl_cons, if_neg moves, if_neg up, List.mem_singleton.1 mem]
    exact suffix_plainly (List.not_mem_of_not_mem_cons down) (name :: dir)

theorem exists_link_of_follow {dir' : Location} {target : String} {rest : List String}
    (stops : t.follow .find dir names = .ok (.link dir' target rest)) :
    ∃ place ∈ t.passed dir names, t.node? place = some (.link target) := by
  fun_induction passed t dir names with
  | case1 => cases stops
  | case2 dir name rest' stays ih =>
    rw [follow, if_pos stays] at stops
    exact ih stops
  | case3 dir rest' moves ih =>
    rw [follow, if_neg moves, if_pos rfl] at stops
    exact ih stops
  | case4 dir name rest' moves up long => simp [follow, moves, up, long] at stops
  | case5 dir name rest' moves up fits found ih =>
    obtain ⟨place, mem, link⟩ := ih (by simpa [follow, moves, up, fits, found] using stops)
    exact ⟨place, List.mem_cons_of_mem _ mem, link⟩
  | case6 dir name rest' moves up fits found =>
    refine ⟨name :: dir, List.mem_cons_self, ?_⟩
    simp only [follow, moves, up, fits] at stops
    rcases object : t.node? (name :: dir) with _ | content | _ | target'
    · cases rest' <;> simp [object] at stops
    · cases rest' <;> simp [object] at stops
    · exact absurd object found
    · obtain ⟨-, rfl, -⟩ := by simpa [object] using stops
      rfl

/-- On a way without links and upward steps only the place that the path names and the directories
above it are looked at. -/
theorem suffix_of_mem_visited {path : Path} (down : ".." ∉ path.pieces)
    (plain : ∀ place target, place <:+ plainLocation dir path →
      t.node? place ≠ some (.link target)) {place : Location} (mem : place ∈ t.visited dir path) :
    place <:+ plainLocation dir path := by
  rw [plainLocation_eq] at plain ⊢
  unfold visited walked at mem
  split at mem
  · cases mem
  · rcases List.mem_append.1 mem with mem | mem
    · exact suffix_of_mem_passed down mem
    · split at mem
      · rename_i stops
        obtain ⟨link, passed, found⟩ := exists_link_of_follow stops
        exact absurd found (plain _ _ (suffix_of_mem_passed down passed))
      · cases mem

end Plain

end FileTree

section Paths

variable {p : Path} {rel name : String}

theorem Path.mem_pieces_join (relative : isAbsolute rel = false)
    (mem : name ∈ (p.join rel).pieces) : name ∈ p.pieces ∨ name ∈ (Path.mk rel).pieces := by
  by_cases blank : p.text = ""
  · have text : p.join rel = ⟨rel⟩ := by simp [join, relative, blank]
    rw [text] at mem
    exact .inr mem
  · by_cases inside : p.text.toList.getLast? = some '/'
    · obtain ⟨front, ends⟩ := List.getLast?_eq_some_iff.1 inside
      have text : (p.join rel).text.toList = front ++ '/' :: rel.toList := by
        simp [join, relative, ends]
      rw [pieces, text, Text.splitAt_append_cons, List.map_append] at mem
      rw [pieces, ends, Text.splitAt_append_cons, List.map_append]
      exact (List.mem_append.1 mem).imp_left (List.mem_append_left _)
    · rw [pieces_join relative blank inside] at mem
      exact List.mem_append.1 mem

theorem FileTree.plainLocation_join (relative : Path.isAbsolute rel = false) (filled : p.text ≠ "")
    (inside : p.text.toList.getLast? ≠ some '/') (dir : Location) :
    plainLocation dir (p.join rel) = plainly (plainLocation dir p) (Path.mk rel).pieces := by
  have text : (p.join rel).text.toList = p.text.toList ++ '/' :: rel.toList := by
    simp [Path.join, relative, filled, inside]
  have start : origin dir (p.join rel).text = origin dir p.text := by
    obtain ⟨c, cs, chars⟩ := List.exists_cons_of_ne_nil (String.toList_eq_nil_iff.not.2 filled)
    rw [origin, origin, Path.isAbsolute, Path.isAbsolute, text, chars]
    rfl
  rw [plainLocation_eq, plainLocation_eq, Path.pieces_join relative filled inside, start,
    plainly_append]

end Paths

namespace SystemRoot

variable {r : SystemRoot} {rel : String}

theorem mem_pieces_procFile (relative : Path.isAbsolute rel = false) {name : String}
    (mem : name ∈ (r.procFile rel).pieces) :
    name ∈ r.top.pieces ∨ name = "proc" ∨ name ∈ (Path.mk rel).pieces := by
  rcases Path.mem_pieces_join relative mem with mem | mem
  · rcases Path.mem_pieces_join (by decide) mem with mem | mem
    · exact .inl mem
    · exact .inr (.inl (List.mem_singleton.1 mem))
  · exact .inr (.inr mem)

theorem plainLocation_procFile (r : SystemRoot) (relative : Path.isAbsolute rel = false)
    (dir : Location) :
    FileTree.plainLocation dir (r.procFile rel) =
      FileTree.plainly (FileTree.plainLocation dir (r.top.join "proc")) (Path.mk rel).pieces := by
  obtain ⟨front, text⟩ := Cpu.Survey.exists_text_join r.top "proc"
  apply FileTree.plainLocation_join relative <;> simp [text]

end SystemRoot

namespace Host

/-- Hosts that are the same except at a place and below it. -/
structure SameOutside (location : Location) (h h' : Host) : Prop where
  tree : h.tree.SameOutside location h'.tree
  workingDirectory : h'.workingDirectory = h.workingDirectory

variable {h h' : Host} {location : Location} {path : Path}

theorem SameOutside.read_eq (same : SameOutside location h h')
    (aside : ∀ place ∈ h.visited path, ¬location <:+ place) : h'.read path = h.read path := by
  rw [read, read, same.workingDirectory]
  exact FileTree.read_eq_of_visited fun place mem => same.tree place (aside place mem)

/-- Whether neither the place that a path names nor a directory above it is a link. -/
def Plain (h : Host) (path : Path) : Prop :=
  ∀ place target, place <:+ FileTree.plainLocation h.workingDirectory path →
    h.tree.node? place ≠ some (.link target)

theorem plain_of_kind (linkless : ∀ e ∈ h.tree.nodes, e.2.kind ≠ .link) (path : Path) :
    h.Plain path := by
  intro place target _ found
  cases place with
  | nil => cases found
  | cons name above => exact linkless _ (FileTree.mem_of_find?_eq_some found) rfl

theorem SameOutside.read_eq_of_plain (same : SameOutside location h h')
    (down : ".." ∉ path.pieces) (plain : h.Plain path)
    (aside : ¬location <:+ FileTree.plainLocation h.workingDirectory path) :
    h'.read path = h.read path :=
  same.read_eq fun _ mem below =>
    aside (below.trans (FileTree.suffix_of_mem_visited down plain mem))

end Host

end HostInventory
