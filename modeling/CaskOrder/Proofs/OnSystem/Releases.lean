import CaskOrder.OnSystem.Macos
import CaskOrder.Proofs.OnSystem.Architectures

/-!
# Blocks for releases

A set of block names for releases has the architectures in front, so a lookup finds an
architecture under its name whatever the releases are called.  A release is found under its
own name unless its symbol is the tag of an architecture, and nothing else is found.

The releases of macOS do not share their symbols with the architectures, and therefore the
built-in set leads to exactly those releases that have a version number.
-/

namespace CaskOrder

theorem Arch.forall_iff {P : Arch → Prop} : (∀ arch, P arch) ↔ P .arm ∧ P .intel := by
  constructor
  · intro h
    exact ⟨h .arm, h .intel⟩
  · intro h arch
    cases arch with
    | arm => exact h.1
    | intel => exact h.2

namespace Target

theorem release_mem_withReleases_iff {symbols : List String} {symbol : String} :
    release symbol ∈ withReleases symbols ↔ symbol ∈ symbols := by
  simp [withReleases]

end Target

namespace Macos

theorem isSome_number?_iff {symbol : String} : (number? symbol).isSome ↔ symbol ∈ symbols := by
  rw [number?, List.lookup_isSome_iff, symbols, List.mem_map]
  constructor
  · intro h
    rcases h with ⟨release, hmem, heq⟩
    exact ⟨release, hmem, (beq_iff_eq.mp heq).symm⟩
  · intro h
    rcases h with ⟨release, hmem, heq⟩
    exact ⟨release, hmem, beq_iff_eq.mpr heq.symm⟩

/-- No release has the tag of an architecture. -/
theorem ne_tag_of_mem_symbols {symbol : String} (hmem : symbol ∈ symbols) (arch : Arch) :
    symbol ≠ arch.tag := by
  have habsent : ∀ arch : Arch, arch.tag ∉ symbols :=
    Arch.forall_iff.mpr ⟨by decide, by decide⟩
  intro heq
  rw [heq] at hmem
  exact habsent arch hmem

end Macos

namespace BlockNames

variable {symbols : List String} {name symbol : String}

theorem names_ofReleases (symbols : List String) :
    (ofReleases symbols).value.names =
      "on_arm" :: "on_intel" :: symbols.map fun symbol => "on_" ++ symbol := by
  rw [(ofReleases symbols).value.names_eq]
  change (Target.withReleases symbols).map Target.blockName = _
  rw [Target.withReleases, List.map_append, List.map_map, List.map_map]
  rfl

theorem target?_ofReleases_eq_arch_iff {arch : Arch} :
    (ofReleases symbols).value.target? name = some (.arch arch) ↔ name = "on_" ++ arch.tag := by
  constructor
  · intro hfound
    exact (blockName_of_target? hfound).symm
  · intro hname
    have hset := ofReleases_hasArchitectures symbols
    rw [hname]
    cases arch with
    | arm => exact hset.arm
    | intel => exact hset.intel

theorem target?_ofReleases_eq_release_iff :
    (ofReleases symbols).value.target? name = some (.release symbol) ↔
      name = "on_" ++ symbol ∧ symbol ∈ symbols ∧ ∀ arch : Arch, symbol ≠ arch.tag := by
  constructor
  · intro hfound
    have hname : name = "on_" ++ symbol := (blockName_of_target? hfound).symm
    refine ⟨hname, Target.release_mem_withReleases_iff.mp (mem_targets_of_target? hfound), ?_⟩
    intro arch htag
    rw [htag] at hname
    rw [target?_ofReleases_eq_arch_iff.mpr hname] at hfound
    cases hfound
  · intro h
    rcases h with ⟨hname, hmem, hnoArch⟩
    have htarget : Target.release symbol ∈ (ofReleases symbols).value.targets :=
      Target.release_mem_withReleases_iff.mpr hmem
    rcases List.mem_iff_getElem?.mp htarget with ⟨index, hindex⟩
    rcases target?_of_getElem? hindex with ⟨found, hfound, htag, -⟩
    rw [hname]
    -- what is found has the tag of the release, so it can only be the release
    cases found with
    | arch a => exact absurd htag.symm (hnoArch a)
    | release other =>
        cases htag
        exact hfound

theorem target?_ofReleases_eq_none_iff :
    (ofReleases symbols).value.target? name = none ↔
      (∀ arch : Arch, name ≠ "on_" ++ arch.tag) ∧ ∀ symbol ∈ symbols, name ≠ "on_" ++ symbol := by
  have harch : (∀ arch : Arch, name ≠ "on_" ++ arch.tag) ↔ name ≠ "on_arm" ∧ name ≠ "on_intel" :=
    Arch.forall_iff
  rw [target?_eq_none_iff, names_ofReleases, harch]
  simp only [List.mem_cons, List.mem_map, not_or, not_exists, not_and, and_assoc, ne_eq,
    @eq_comm _ name]

/-- The set has a name for each architecture and each release, in this order, and a name leads
to the architecture it was derived from, to a release with its symbol only if there is no such
architecture, and otherwise nowhere. -/
structure LeadsToReleases (set : BlockNames) (symbols : List String) : Prop where
  size_eq : set.size = symbols.length + 2
  names_eq : set.names = "on_arm" :: "on_intel" :: symbols.map fun symbol => "on_" ++ symbol
  arch_iff : ∀ (name : String) (arch : Arch),
    set.target? name = some (.arch arch) ↔ name = "on_" ++ arch.tag
  release_iff : ∀ name symbol, set.target? name = some (.release symbol) ↔
    name = "on_" ++ symbol ∧ symbol ∈ symbols ∧ ∀ arch : Arch, symbol ≠ arch.tag
  absent_iff : ∀ name, set.target? name = none ↔
    (∀ arch : Arch, name ≠ "on_" ++ arch.tag) ∧ ∀ symbol ∈ symbols, name ≠ "on_" ++ symbol
  not_shadowed : ∀ (name : String) (arch : Arch), set.target? name ≠ some (.release arch.tag)

theorem ofReleases_leadsToReleases (symbols : List String) :
    (ofReleases symbols).value.LeadsToReleases symbols where
  size_eq := by
    rw [size, names_ofReleases, List.length_cons, List.length_cons, List.length_map]
  names_eq := names_ofReleases symbols
  arch_iff _ _ := target?_ofReleases_eq_arch_iff
  release_iff _ _ := target?_ofReleases_eq_release_iff
  absent_iff _ := target?_ofReleases_eq_none_iff
  not_shadowed _ arch hfound := (target?_ofReleases_eq_release_iff.mp hfound).2.2 arch rfl

/-- Lookups in a set of block names for releases are determined by the name and the symbols, and
no release stands in front of an architecture.  In the built-in set a block name leads to a
release if and only if its tag is the symbol of a release with a version number. -/
theorem releases_found_behind_architectures :
    (∀ symbols, (ofReleases symbols).value.LeadsToReleases symbols) ∧
      ∀ tag, (∃ symbol, macos.target? (blockName tag) = some (.release symbol)) ↔
        (Macos.number? tag).isSome := by
  refine ⟨ofReleases_leadsToReleases, ?_⟩
  intro tag
  rw [Macos.isSome_number?_iff]
  constructor
  · intro h
    rcases h with ⟨symbol, hfound⟩
    rcases target?_ofReleases_eq_release_iff.mp hfound with ⟨hname, hmem, -⟩
    rw [blockName_injective hname]
    exact hmem
  · intro hmem
    exact ⟨tag, target?_ofReleases_eq_release_iff.mpr ⟨rfl, hmem, Macos.ne_tag_of_mem_symbols hmem⟩⟩

/-- Releases may have the tag or even the block name of an architecture. -/
example :
    let set := (ofReleases ["arm", "on_arm", ""]).value
    set.target? "on_arm" = some (.arch .arm) ∧ set.target? "on_on_arm" = some (.release "on_arm") ∧
      set.target? "on_" = some (.release "") ∧ set.target? "arm" = none := by
  decide +kernel

end BlockNames
end CaskOrder
