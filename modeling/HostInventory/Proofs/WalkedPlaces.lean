import HostInventory.FileTree
import Mathlib.Data.List.Nodup

/-! The places that a walk looks at. A tree that differs from another in a file at one place is the
same to every walk that does not look there. A walk that looks there either ends there or is stopped
by what it finds, in both trees, so it finds the same unless the file is the one it leads to. -/
namespace HostInventory.FileTree

/-- The places where names are looked up from a directory on, as far as no link is met. -/
def passed (t : FileTree) (dir : Location) : List String → List Location
  | [] => []
  | name :: rest =>
    if name = "" ∨ name = "." then t.passed dir rest
    else if name = ".." then t.passed dir.tail rest
    else if maxName < name.utf8ByteSize then []
    else
      match t.node? (name :: dir) with
      | some .directory => (name :: dir) :: t.passed (name :: dir) rest
      | _ => [name :: dir]

def walked (t : FileTree) (links : Nat) (dir : Location) (names : List String) : List Location :=
  t.passed dir names ++
    match t.follow .find dir names with
    | .ok (.link dir target rest) =>
      match links with
      | 0 => []
      | links + 1 => t.walked links (origin dir target) ((Path.mk target).pieces ++ rest)
    | _ => []

/-- The places that are looked at on the way to a path. A text that cannot be a path leads
nowhere. -/
def visited (t : FileTree) (dir : Location) (path : Path) : List Location :=
  if '\x00' ∈ path.text.toList ∨ maxPath < path.text.utf8ByteSize ∨ path.text = "" then []
  else t.walked maxLinks (origin dir path.text) path.pieces

def Target.place? : Target → Option Location
  | .file place _ | .vacant place => some place
  | .directory _ => none

def ending? (t : FileTree) (dir : Location) (path : Path) : Option Location :=
  (t.locate .find dir path).toOption.bind Target.place?

def AtMostFile (t : FileTree) (location : Location) : Prop :=
  t.node? location = none ∨ ∃ content, t.node? location = some (.file content)

/-- Why no name can follow a place without a directory. -/
def obstacle (t : FileTree) (location : Location) : Fault :=
  if (t.node? location).isSome then .notDirectory else .missing

/-- Trees that differ at most in a file at one place. -/
structure DifferInFile (location : Location) (t t' : FileTree) : Prop where
  others : t'.nodes.filter (·.1 != location) = t.nodes.filter (·.1 != location)
  atMostFile : t.AtMostFile location
  atMostFile' : t'.AtMostFile location

variable {t t' : FileTree} {location : Location}

theorem find?_filter_of_ne {place : Location} (other : place ≠ location)
    (nodes : List (Location × Node)) :
    find? place (nodes.filter (·.1 != location)) = find? place nodes := by
  induction nodes with
  | nil => rfl
  | cons e rest ih =>
    by_cases here : e.1 = location
    · have passed : ¬e.1 = place := fun same => other (same.symm.trans here)
      simp [here, find?, ih, Ne.symm other]
    · simp [here, find?, ih]

theorem find?_of_mem {e : Location × Node} {nodes : List (Location × Node)}
    (distinct : (nodes.map Prod.fst).Nodup) (mem : e ∈ nodes) : find? e.1 nodes = some e.2 := by
  induction nodes with
  | nil => cases mem
  | cons first rest ih =>
    obtain ⟨new, distinct⟩ := List.nodup_cons.1 distinct
    rcases List.mem_cons.1 mem with rfl | mem
    · simp [find?]
    · have other : first.1 ≠ e.1 := fun same => new (same ▸ List.mem_map_of_mem mem)
      simp [find?, other, ih distinct mem]

theorem node?_put (t : FileTree) (place other : Location) (node : Node) (below : place ≠ []) :
    (t.put place node).node? other = if other = place then some node else t.node? other := by
  cases other with
  | nil => simp [node?, Ne.symm below]
  | cons name above =>
    simp only [node?, put, find?]
    by_cases here : name :: above = place
    · simp [here]
    · simp [here, Ne.symm here, find?_filter_of_ne here]

theorem AtMostFile.ne_directory (atMost : t.AtMostFile location) :
    t.node? location ≠ some .directory := by
  rcases atMost with vacant | ⟨content, file⟩
  · simp [vacant]
  · simp [file]

theorem AtMostFile.ne_top (atMost : t.AtMostFile location) : location ≠ [] := by
  rintro rfl
  exact atMost.ne_directory rfl

theorem obstacle_of_file {content : List UInt8} (file : t.node? location = some (.file content)) :
    t.obstacle location = .notDirectory := by
  simp [obstacle, file]

def entryIn (dir : Location) (e : Location × Node) : Option (String × Node) :=
  match e.1 with
  | [] => none
  | name :: above => if above = dir then some (name, e.2) else none

theorem directories_filter (atMost : t.AtMostFile location) (dir : Location) :
    (t.children dir).filter (·.2 = .directory) =
      ((t.nodes.filter (·.1 != location)).filterMap (entryIn dir)).filter (·.2 = .directory) := by
  rw [show t.children dir = t.nodes.filterMap (entryIn dir) from rfl, List.filterMap_filter,
    List.filter_filterMap, List.filter_filterMap]
  refine List.filterMap_congr fun e mem => ?_
  by_cases here : e.1 = location
  · subst here
    have found := find?_of_mem t.distinct mem
    obtain ⟨place, node⟩ := e
    cases place with
    | nil => exact absurd rfl atMost.ne_top
    | cons name above =>
      have other : node ≠ .directory := by
        rintro rfl
        exact atMost.ne_directory found
      simp only [entryIn]
      split <;> simp [other]
  · simp [here]

def Target.Here (t : FileTree) : Target → Prop
  | .file place content => t.node? place = some (.file content)
  | .directory _ => True
  | .vacant place => t.node? place = none

theorem here_of_follow {purpose : Purpose} {dir : Location} {names : List String} {target : Target}
    (ends : t.follow purpose dir names = .ok (.target target)) : target.Here t := by
  fun_induction follow t purpose dir names with
  | case1 =>
    cases ends
    trivial
  | case2 _ _ _ _ ih => exact ih ends
  | case3 _ _ _ ih => exact ih ends
  | case6 _ _ _ _ _ _ _ vacant =>
    cases ends
    exact vacant
  | case8 _ _ _ _ _ _ _ _ ih => exact ih ends
  | case9 _ _ _ _ _ _ _ _ found =>
    cases ends
    exact found
  | _ => cases ends

theorem here_of_walk {purpose : Purpose} {links : Nat} {dir : Location} {names : List String}
    {target : Target} (ends : t.walk purpose links dir names = .ok target) : target.Here t := by
  fun_induction walk t purpose links dir names with
  | case1 => cases ends
  | case2 _ _ _ _ found =>
    cases ends
    exact here_of_follow found
  | case3 => cases ends
  | case4 _ _ _ _ _ _ _ ih => exact ih ends

theorem here_of_locate {purpose : Purpose} {dir : Location} {path : Path} {target : Target}
    (ends : t.locate purpose dir path = .ok target) : target.Here t := by
  unfold locate at ends
  split_ifs at ends
  exact here_of_walk ends

theorem list_of_place {dir : Location} {path : Path} {target : Target}
    (ends : t.locate .find dir path = .ok target) (place : target.place? = some location) :
    t.list dir path = .error (t.obstacle location) := by
  have here := here_of_locate ends
  rw [list, ends]
  cases target with
  | file place' content =>
    cases place
    rw [obstacle_of_file here]
  | directory place' => cases place
  | vacant place' =>
    cases place
    rw [obstacle, show t.node? location = none from here]
    rfl

theorem follow_of_atMostFile {name : String} {dir : Location} (atMost : t.AtMostFile (name :: dir))
    (moves : ¬(name = "" ∨ name = ".")) (down : ¬name = "..")
    (fits : ¬maxName < name.utf8ByteSize) (rest : List String) :
    if rest.isEmpty then
      ∃ target, t.follow .find dir (name :: rest) = .ok (.target target) ∧
        target.place? = some (name :: dir)
    else t.follow .find dir (name :: rest) = .error (t.obstacle (name :: dir)) := by
  rcases atMost with vacant | ⟨content, file⟩
  · cases rest with
    | nil => exact ⟨.vacant (name :: dir), by simp [follow, moves, down, fits, vacant], rfl⟩
    | cons next rest => simp [follow, moves, down, fits, vacant, obstacle]
  · cases rest with
    | nil => exact ⟨.file (name :: dir) content, by simp [follow, moves, down, fits, file], rfl⟩
    | cons next rest => simp [follow, moves, down, fits, file, obstacle]

/-- How walks in two trees compare that differ in a file: they are the same, or both look at the
place of the file and are stopped there for want of a directory, or end there. -/
inductive Compared {α : Type} (location : Location) (t t' : FileTree) (arrive : Target → α)
    (looked : List Location) : Except Fault α → Except Fault α → Prop
  | same (reached : Except Fault α) : Compared location t t' arrive looked reached reached
  | stopped (mem : location ∈ looked) : Compared location t t' arrive looked
    (.error (t.obstacle location)) (.error (t'.obstacle location))
  | ended {target target' : Target} (mem : location ∈ looked)
    (here : target.place? = some location) (here' : target'.place? = some location) :
    Compared location t t' arrive looked (.ok (arrive target)) (.ok (arrive target'))

theorem Compared.mono {α : Type} {arrive : Target → α} {looked looked' : List Location}
    {reached reached' : Except Fault α} (more : looked ⊆ looked')
    (compared : Compared location t t' arrive looked reached reached') :
    Compared location t t' arrive looked' reached reached' := by
  cases compared with
  | same => exact .same _
  | stopped mem => exact .stopped (more mem)
  | ended mem here here' => exact .ended (more mem) here here'

namespace DifferInFile

theorem refl (atMost : t.AtMostFile location) : DifferInFile location t t := ⟨rfl, atMost, atMost⟩

theorem put (same : DifferInFile location t t') (content : List UInt8) :
    DifferInFile location t (t'.put location (.file content)) where
  others := by simpa [FileTree.put] using same.others
  atMostFile := same.atMostFile
  atMostFile' := .inr ⟨content, by rw [node?_put _ _ _ _ same.atMostFile.ne_top, if_pos rfl]⟩

theorem node?_eq (same : DifferInFile location t t') {place : Location}
    (other : place ≠ location) : t'.node? place = t.node? place := by
  cases place with
  | nil => rfl
  | cons name above =>
    change find? _ t'.nodes = find? _ t.nodes
    rw [← find?_filter_of_ne other, same.others, find?_filter_of_ne other]

theorem directories_eq (same : DifferInFile location t t') (dir : Location) :
    (t'.children dir).filter (·.2 = .directory) = (t.children dir).filter (·.2 = .directory) := by
  rw [directories_filter same.atMostFile, directories_filter same.atMostFile', same.others]

theorem follow_compared (same : DifferInFile location t t') (dir : Location)
    (names : List String) :
    Compared location t t' Stop.target (t.passed dir names) (t.follow .find dir names)
      (t'.follow .find dir names) := by
  fun_induction passed t dir names with
  | case1 dir => exact .same _
  | case2 dir name rest stays ih => simpa only [follow, if_pos stays] using ih
  | case3 dir rest _ ih => simpa [follow] using ih
  | case4 dir name rest moves down long =>
    have both (t : FileTree) : t.follow .find dir (name :: rest) = .error .nameTooLong := by
      simp [follow, moves, down, long]
    rw [both, both]
    exact .same _
  | case5 dir name rest moves down fits found ih =>
    have other : name :: dir ≠ location := by
      rintro rfl
      exact same.atMostFile.ne_directory found
    have both (t : FileTree) (found : t.node? (name :: dir) = some .directory) :
        t.follow .find dir (name :: rest) = t.follow .find (name :: dir) rest := by
      simp [follow, moves, down, fits, found]
    rw [both t found, both t' (same.node?_eq other ▸ found)]
    exact ih.mono (List.subset_cons_self _ _)
  | case6 dir name rest moves down fits found =>
    -- There is no directory under the name, so this is the last place that is looked at. It is also
    -- the only one at which the trees can differ.
    by_cases here : name :: dir = location
    · subst here
      have ends := follow_of_atMostFile same.atMostFile moves down fits rest
      have ends' := follow_of_atMostFile same.atMostFile' moves down fits rest
      split at ends <;> rename_i last
      · obtain ⟨target, ends, place⟩ := ends
        obtain ⟨target', ends', place'⟩ := by simpa only [if_pos last] using ends'
        rw [ends, ends']
        exact .ended List.mem_cons_self place place'
      · rw [if_neg last] at ends'
        rw [ends, ends']
        exact .stopped List.mem_cons_self
    · have both : t'.follow .find dir (name :: rest) = t.follow .find dir (name :: rest) := by
        simp only [follow, moves, down, fits, same.node?_eq here]
        rcases object : t.node? (name :: dir) with _ | content | _ | target
        · rfl
        · rfl
        · exact absurd object found
        · rfl
      rw [both]
      exact .same _

theorem walk_compared (same : DifferInFile location t t') (links : Nat) (dir : Location)
    (names : List String) :
    Compared location t t' id (t.walked links dir names) (t.walk .find links dir names)
      (t'.walk .find links dir names) := by
  fun_induction walked t links dir names with
  | case1 links dir names ih =>
    have first := same.follow_compared dir names
    generalize reached : t.follow .find dir names = stop at first ih
    generalize reached' : t'.follow .find dir names = stop' at first
    unfold walk
    rw [reached, reached']
    cases first with
    | same =>
      rcases stop with _ | _ | ⟨dir', target, rest⟩
      · exact .same _
      · exact .same _
      · cases links with
        | zero => exact .same _
        | succ links => exact (ih dir' target rest).mono (List.subset_append_right _ _)
    | stopped mem => exact .stopped (List.mem_append_left _ mem)
    | ended mem here here' => exact .ended (List.mem_append_left _ mem) here here'

theorem locate_compared (same : DifferInFile location t t') (dir : Location) (path : Path) :
    Compared location t t' id (t.visited dir path) (t.locate .find dir path)
      (t'.locate .find dir path) := by
  unfold visited locate
  by_cases nul : '\x00' ∈ path.text.toList
  · simp only [if_pos nul]
    exact .same _
  · by_cases long : maxPath < path.text.utf8ByteSize
    · simp only [if_neg nul, if_pos long]
      exact .same _
    · by_cases blank : path.text = ""
      · simp only [if_neg nul, if_neg long, if_pos blank]
        exact .same _
      · simp only [nul, long, blank, or_self, if_false]
        exact same.walk_compared _ _ _

theorem read_compared (same : DifferInFile location t t') (dir : Location) (path : Path) :
    t'.read dir path = t.read dir path ∨
      location ∈ t.visited dir path ∧
        (t.read dir path = .error (t.obstacle location) ∧
          t'.read dir path = .error (t'.obstacle location) ∨
        t.ending? dir path = some location) := by
  have compared := same.locate_compared dir path
  unfold read ending?
  generalize t.locate .find dir path = reached at compared
  generalize t'.locate .find dir path = reached' at compared
  cases compared with
  | same => exact .inl rfl
  | stopped mem => exact .inr ⟨mem, .inl ⟨rfl, rfl⟩⟩
  | ended mem here here' => exact .inr ⟨mem, .inr here⟩

theorem ending?_ne (same : DifferInFile location t t') {dir : Location} {path : Path}
    (outside : t.ending? dir path ≠ some location) : t'.ending? dir path ≠ some location := by
  have compared := same.locate_compared dir path
  unfold ending? at *
  generalize t.locate .find dir path = reached at *
  generalize t'.locate .find dir path = reached' at *
  cases compared with
  | same => exact outside
  | stopped mem => exact Option.some_ne_none location ∘ Eq.symm
  | ended mem here here' => exact absurd here outside

theorem list_compared (same : DifferInFile location t t') (dir : Location) (path : Path) :
    (t'.list dir path).map (List.filter (·.2 = .directory)) =
        (t.list dir path).map (List.filter (·.2 = .directory)) ∨
      location ∈ t.visited dir path ∧ t.list dir path = .error (t.obstacle location) ∧
        t'.list dir path = .error (t'.obstacle location) := by
  have compared := same.locate_compared dir path
  generalize found : t.locate .find dir path = reached at compared
  generalize found' : t'.locate .find dir path = reached' at compared
  cases compared with
  | same =>
    left
    rw [list, list, found, found']
    rcases reached with _ | _ | place | _
    · rfl
    · rfl
    · exact congrArg Except.ok (same.directories_eq place)
    · rfl
  | stopped mem => exact .inr ⟨mem, by rw [list, found], by rw [list, found']⟩
  | ended mem place place' =>
    exact .inr ⟨mem, list_of_place found place, list_of_place found' place'⟩

end DifferInFile

theorem create_eq_ok {dir : Location} {path : Path}
    (made : t.create dir path = .ok (t', location)) :
    t.AtMostFile location ∧ t' = t.put location (.file []) := by
  unfold create at made
  cases ends : t.locate .create dir path with
  | error fault =>
    rw [ends] at made
    cases made
  | ok target =>
    have here := here_of_locate ends
    rw [ends] at made
    cases target with
    | file place content =>
      cases made
      exact ⟨.inr ⟨content, here⟩, rfl⟩
    | directory place => cases made
    | vacant place =>
      cases made
      exact ⟨.inl here, rfl⟩

theorem append_of_file {content : List UInt8} (file : t.node? location = some (.file content))
    (bytes : List UInt8) :
    t.append location bytes = t.put location (.file (content ++ bytes)) := by
  rw [append, file]

end HostInventory.FileTree
