import CaskOrder.OnSystem.BlockNames
import Mathlib.Tactic
import Std.Data.TreeMap.Lemmas

/-!
# Looking up block names

The lookup of a set is filled name by name, and a name that is there already is left out.
The invariant below says that the lookup holds the first index of every name that was
passed, and nothing else.

The main statement is that a set answers every name as a scan of its names from the left
would.  What is found for the name of a target can differ from the target only in its kind,
since a release may have the tag of an architecture.
-/

namespace CaskOrder

/-! ## Tags and names -/

theorem blockName_injective {tag other : String} (h : blockName tag = blockName other) :
    tag = other :=
  (String.append_right_inj "on_").mp h

namespace Target

/-- The kind of a target, which its tag does not tell. -/
def isArch : Target → Bool
  | arch _ => true
  | release _ => false

theorem blockName_eq (target : Target) : target.blockName = "on_" ++ target.tag :=
  rfl

theorem tag_eq_of_blockName_eq {target other : Target} (h : target.blockName = other.blockName) :
    target.tag = other.tag :=
  blockName_injective h

theorem arch_tag_injective {a b : Arch} (h : a.tag = b.tag) : a = b := by
  revert h
  cases a <;> cases b <;> decide

/-- A target is known by its tag and its kind. -/
theorem eq_of_tag_eq {target other : Target} (htag : target.tag = other.tag)
    (hkind : target.isArch = other.isArch) : target = other := by
  cases target with
  | arch a =>
      cases other with
      | arch b => exact congrArg arch (arch_tag_injective htag)
      | release symbol => cases hkind
  | release symbol =>
      cases other with
      | arch b => cases hkind
      | release symbol' => exact congrArg release htag

end Target

/-! ## Filling the lookup -/

/-- The lookup holds the first index of every name that was passed. -/
def HoldsFirst (lookup : Std.TreeMap String Nat) (passed : List String) : Prop :=
  ∀ name, lookup[name]? = passed.idxOf? name

theorem holdsFirst_nil : HoldsFirst ∅ [] := by
  intro name
  simp

theorem idxOf?_append_singleton (passed : List String) (last name : String) :
    (passed ++ [last]).idxOf? name =
      (passed.idxOf? name).or (if last = name then some passed.length else none) := by
  rw [List.idxOf?, List.findIdx?_append]
  by_cases heq : last = name
  · simp [heq]
  · simp [heq]

theorem HoldsFirst.contains_iff {lookup : Std.TreeMap String Nat} {passed : List String}
    (hfirst : HoldsFirst lookup passed) (name : String) :
    lookup.contains name = true ↔ name ∈ passed := by
  rw [Std.TreeMap.contains_eq_isSome_getElem?, hfirst name]
  exact List.isSome_idxOf?

theorem HoldsFirst.pass {lookup : Std.TreeMap String Nat} {passed : List String}
    (hfirst : HoldsFirst lookup passed) {last : String} (hlast : last ∈ passed) :
    HoldsFirst lookup (passed ++ [last]) := by
  intro name
  rw [idxOf?_append_singleton, hfirst name]
  by_cases heq : last = name
  · obtain ⟨index, hindex⟩ := Option.isSome_iff_exists.mp (List.isSome_idxOf?.mpr (heq ▸ hlast))
    rw [hindex, Option.some_or]
  · rw [if_neg heq, Option.or_none]

theorem HoldsFirst.insert {lookup : Std.TreeMap String Nat} {passed : List String}
    (hfirst : HoldsFirst lookup passed) {last : String} (hlast : last ∉ passed) :
    HoldsFirst (lookup.insert last passed.length) (passed ++ [last]) := by
  intro name
  rw [idxOf?_append_singleton, Std.TreeMap.getElem?_insert, hfirst name]
  by_cases heq : last = name
  · subst name
    have hnone : passed.idxOf? last = none := List.idxOf?_eq_none_iff.mpr hlast
    simp [hnone]
  · have hne : ¬compare last name = .eq := by
      rw [Std.LawfulEqOrd.compare_eq_iff_eq]
      exact heq
    rw [if_neg hne, if_neg heq, Option.or_none]

/-- Names that are entered behind those that were passed already. -/
theorem holdsFirst_enterNames {lookup : Std.TreeMap String Nat} {passed : List String}
    (hfirst : HoldsFirst lookup passed) (names : List String) :
    HoldsFirst (enterNames lookup passed.length names).1 (passed ++ names) := by
  induction names generalizing lookup passed with
  | nil =>
      rw [List.append_nil]
      exact hfirst
  | cons name names ih =>
      have hsplit : passed ++ name :: names = (passed ++ [name]) ++ names := by simp
      have hlength : passed.length + 1 = (passed ++ [name]).length := by simp
      rw [enterNames, hsplit, hlength]
      by_cases hmem : name ∈ passed
      · rw [if_pos ((hfirst.contains_iff name).mpr hmem)]
        exact ih (hfirst.pass hmem)
      · rw [if_neg (mt (hfirst.contains_iff name).mp hmem)]
        exact ih (hfirst.insert hmem)

namespace BlockNames

variable (set : BlockNames) {name : String}

theorem holdsFirst_lookup : HoldsFirst set.lookup set.names := by
  rw [set.lookup_eq]
  exact holdsFirst_enterNames holdsFirst_nil set.names

theorem getElem?_names (index : Nat) :
    set.names[index]? = set.targets[index]?.map fun target => "on_" ++ target.tag := by
  rw [set.names_eq, List.getElem?_map]
  rfl

theorem getElem?_names_of_target {index : Nat} {target : Target}
    (htarget : set.targets[index]? = some target) :
    set.names[index]? = some target.blockName := by
  rw [getElem?_names, htarget, Option.map_some, target.blockName_eq]

theorem length_names : set.names.length = set.targets.length := by
  rw [set.names_eq, List.length_map]

variable {set}

theorem contains_iff_mem_names : set.contains name = true ↔ name ∈ set.names :=
  set.holdsFirst_lookup.contains_iff name

/-- The name stands at the index, and nowhere before it. -/
def FirstAt (names : List String) (name : String) (index : Nat) : Prop :=
  names[index]? = some name ∧ ∀ earlier < index, names[earlier]? ≠ some name

theorem idxOf?_eq_some_iff_firstAt {names : List String} {index : Nat} :
    names.idxOf? name = some index ↔ FirstAt names name index := by
  rw [List.idxOf?_eq_some_iff, FirstAt, List.getElem?_eq_some_iff]
  constructor
  · intro h
    obtain ⟨hlt, hget, hnot⟩ := h
    refine ⟨⟨hlt, hget⟩, ?_⟩
    intro earlier hearlier
    rw [List.getElem?_eq_getElem (by omega), Ne, Option.some.injEq]
    exact hnot earlier hearlier
  · intro h
    obtain ⟨⟨hlt, hget⟩, hnot⟩ := h
    refine ⟨hlt, hget, ?_⟩
    intro earlier hearlier heq
    apply hnot earlier hearlier
    rw [List.getElem?_eq_getElem (by omega), heq]

theorem getElem?_lookup_eq_some_iff {index : Nat} :
    set.lookup[name]? = some index ↔ FirstAt set.names name index := by
  rw [set.holdsFirst_lookup name, idxOf?_eq_some_iff_firstAt]

theorem lookup_lt_length {index : Nat} (hindex : set.lookup[name]? = some index) :
    index < set.targets.length := by
  have hget : set.names[index]? = some name := (getElem?_lookup_eq_some_iff.mp hindex).1
  rw [← set.length_names]
  exact (List.getElem?_eq_some_iff.mp hget).1

theorem target?_eq_some_iff {target : Target} :
    set.target? name = some target ↔
      ∃ index, FirstAt set.names name index ∧ set.targets[index]? = some target := by
  rw [target?, Option.bind_eq_some_iff]
  simp only [getElem?_lookup_eq_some_iff]

theorem target?_eq_none_iff : set.target? name = none ↔ name ∉ set.names := by
  rw [target?, set.holdsFirst_lookup name, ← List.idxOf?_eq_none_iff]
  cases hindex : set.names.idxOf? name with
  | none => simp
  | some index =>
      rw [← set.holdsFirst_lookup name] at hindex
      simp [lookup_lt_length hindex]

/-- A lookup finds the first target with the name. -/
theorem target?_eq_find? (set : BlockNames) (name : String) :
    set.target? name = set.targets.find? fun target => target.blockName == name := by
  have hindex : set.names.idxOf? name =
      set.targets.findIdx? fun target => target.blockName == name := by
    rw [set.names_eq, List.idxOf?, List.findIdx?_map]
    rfl
  rw [target?, set.holdsFirst_lookup name, hindex, List.find?_eq_bind_findIdx?_getElem?]

theorem mem_targets_of_target? {target : Target} (hfound : set.target? name = some target) :
    target ∈ set.targets := by
  rw [target?_eq_find?] at hfound
  exact List.mem_of_find?_eq_some hfound

theorem blockName_of_target? {target : Target} (hfound : set.target? name = some target) :
    target.blockName = name := by
  obtain ⟨index, hfirst, htarget⟩ := target?_eq_some_iff.mp hfound
  have hname : set.names[index]? = some target.blockName := set.getElem?_names_of_target htarget
  exact Option.some.inj (hname.symm.trans hfirst.1)

/-- What is found for the name of a target is the target itself, or an earlier one of the
other kind with the same tag. -/
theorem target?_of_getElem? {index : Nat} {target : Target}
    (htarget : set.targets[index]? = some target) :
    ∃ found, set.target? target.blockName = some found ∧ found.tag = target.tag ∧
      (found = target ∨ ∃ earlier < index, ∃ other, set.targets[earlier]? = some other ∧
        other.tag = target.tag ∧ other.isArch ≠ target.isArch) := by
  have hname : set.names[index]? = some target.blockName := set.getElem?_names_of_target htarget
  have hmem : target.blockName ∈ set.names := List.mem_of_getElem? hname
  have hpresent : set.target? target.blockName ≠ none := by
    intro hnone
    exact target?_eq_none_iff.mp hnone hmem
  obtain ⟨found, hfound⟩ := Option.ne_none_iff_exists'.mp hpresent
  have htag : found.tag = target.tag := Target.tag_eq_of_blockName_eq (blockName_of_target? hfound)
  obtain ⟨first, hfirst, hget⟩ := target?_eq_some_iff.mp hfound
  refine ⟨found, hfound, htag, ?_⟩
  by_cases hkind : found.isArch = target.isArch
  · exact .inl (Target.eq_of_tag_eq htag hkind)
  · -- a target of the other kind is not the one at the index, so it comes earlier
    have hne : first ≠ index := by
      intro heq
      rw [heq, htarget, Option.some.injEq] at hget
      exact hkind (congrArg Target.isArch hget.symm)
    have hle : first ≤ index := by
      by_contra hlt
      exact hfirst.2 index (by omega) hname
    exact .inr ⟨first, by omega, found, hget, htag, hkind⟩

/-- The answers about a name are those of a scan of the names from the left. -/
structure AnswersByScan (set : BlockNames) (name : String) : Prop where
  contains : set.contains name = true ↔ name ∈ set.names
  target : ∀ target, set.target? name = some target ↔
    ∃ index, FirstAt set.names name index ∧ set.targets[index]? = some target
  absent : set.target? name = none ↔ name ∉ set.names
  index_lt : ∀ index, set.lookup[name]? = some index → index < set.targets.length
  blockName : ∀ target, set.target? name = some target → target.blockName = name

/-- The set of a list of targets keeps the list, has one name for each target, and answers
every name as a scan of the names would.  The name of a target leads to a target with the
same tag, and to the target itself unless one of the other kind comes first. -/
theorem ofTargets_answers_by_scan (targets : List Target) :
    let set : BlockNames := (ofTargets targets).value
    set.targets = targets ∧
      (∀ index : Nat, set.names[index]? =
        set.targets[index]?.map fun (target : Target) => "on_" ++ target.tag) ∧
      set.names.length = set.targets.length ∧
      (∀ name, set.AnswersByScan name) ∧
      ∀ (index : Nat) (target : Target), targets[index]? = some target →
        ∃ name found, set.names[index]? = some name ∧ set.target? name = some found ∧
          found.tag = target.tag ∧
          (found = target ∨ ∃ earlier < index, ∃ other, targets[earlier]? = some other ∧
            other.tag = target.tag ∧ other.isArch ≠ target.isArch) := by
  intro set
  refine ⟨rfl, set.getElem?_names, set.length_names, ?_, ?_⟩
  · intro name
    exact
      { contains := contains_iff_mem_names
        target := fun _ => target?_eq_some_iff
        absent := target?_eq_none_iff
        index_lt := fun _ => lookup_lt_length
        blockName := fun _ => blockName_of_target? }
  · intro index target htarget
    have hname : set.names[index]? = some target.blockName := set.getElem?_names_of_target htarget
    obtain ⟨found, hfound⟩ := set.target?_of_getElem? htarget
    exact ⟨target.blockName, found, hname, hfound⟩

/-- Under the block name of an architecture, a release with its tag is found that comes first. -/
theorem release_found_for_arch :
    let set : BlockNames := (ofTargets [.release "arm", .arch .arm]).value
    (∃ name found, set.names[1]? = some name ∧ set.target? name = some found ∧
      found.tag = Arch.arm.tag) ∧ set.target? "on_arm" = some (.release "arm") := by
  intro set
  obtain ⟨-, -, -, hscan, hnames⟩ := ofTargets_answers_by_scan [.release "arm", .arch .arm]
  obtain ⟨name, found, hname, hfound, htag, -⟩ := hnames 1 (.arch .arm) rfl
  have hfirst : FirstAt set.names "on_arm" 0 := ⟨rfl, by simp⟩
  have hrelease := ((hscan "on_arm").target (.release "arm")).mpr ⟨0, hfirst, rfl⟩
  exact ⟨⟨name, found, hname, hfound, htag⟩, hrelease⟩

end BlockNames
end CaskOrder
