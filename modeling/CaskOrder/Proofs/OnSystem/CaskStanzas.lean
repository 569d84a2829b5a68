import CaskOrder.Proofs.OnSystem.Releases
import CaskOrder.Proofs.Schema.Places
import CaskOrder.Schema.Cask

/-!
# Block names among the stanzas of a cask

Block names share a prefix that only one stanza of a cask has.  Whatever the releases are called,
no other name of a block can be taken for a stanza, and this one is derived from a single tag,
which is not the tag of an architecture.
-/

namespace CaskOrder

theorem blockName_eq_on_arch_conditional_iff {tag : String} :
    blockName tag = "on_arch_conditional" ↔ tag = "arch_conditional" := by
  constructor
  · intro h
    exact blockName_injective h
  · intro h
    rw [h]
    rfl

/-- The one stanza of a cask that looks like the name of a block. -/
theorem GroupTable.cask_prefix : ∀ stanza ∈ GroupTable.cask.flatten,
    "on_".toList <+: stanza.name.toList → stanza.name = "on_arch_conditional" := by
  decide +kernel

theorem Schema.cask_contains_blockName_iff {tag : String} :
    Schema.cask.contains ⟨blockName tag⟩ = true ↔ tag = "arch_conditional" := by
  rw [Schema.contains_iff_mem]
  constructor
  · intro hmem
    have hprefix : "on_".toList <+: (blockName tag).toList := by
      rw [blockName, String.toList_append]
      exact List.prefix_append _ _
    exact blockName_eq_on_arch_conditional_iff.mp (GroupTable.cask_prefix _ hmem hprefix)
  · intro htag
    rw [htag]
    decide +kernel

namespace BlockNames

variable {symbols : List String} {name : String}

theorem exists_tag_of_mem_names {set : BlockNames} (hname : name ∈ set.names) :
    ∃ tag, name = blockName tag := by
  rw [set.names_eq] at hname
  rcases List.mem_map.mp hname with ⟨target, -, htarget⟩
  exact ⟨target.tag, htarget.symm⟩

theorem cask_contains_iff_of_mem_names {set : BlockNames} (hname : name ∈ set.names) :
    Schema.cask.contains ⟨name⟩ = true ↔ name = "on_arch_conditional" := by
  rcases exists_tag_of_mem_names hname with ⟨tag, htag⟩
  rw [htag, Schema.cask_contains_blockName_iff, blockName_eq_on_arch_conditional_iff]

theorem on_arch_conditional_mem_names_iff :
    "on_arch_conditional" ∈ (ofReleases symbols).value.names ↔ "arch_conditional" ∈ symbols := by
  have hname (symbol : String) : "on_" ++ symbol = "on_arch_conditional" ↔
      symbol = "arch_conditional" := blockName_eq_on_arch_conditional_iff
  rw [names_ofReleases]
  simp [hname]

/-- A block name for a release or an architecture is a stanza of a cask if and only if it is
`on_arch_conditional`, so blocks and stanzas have no name in common unless there is a release
with the tag of this name. -/
theorem names_meet_cask_in_one (symbols : List String) :
    (∀ name ∈ (ofReleases symbols).value.names,
      (Schema.cask.contains ⟨name⟩ = true ↔ name = "on_arch_conditional")) ∧
    ((∀ name, ¬((ofReleases symbols).value.contains name = true ∧
      Schema.cask.contains ⟨name⟩ = true)) ↔ "arch_conditional" ∉ symbols) := by
  constructor
  · intro name hname
    exact cask_contains_iff_of_mem_names hname
  · rw [← on_arch_conditional_mem_names_iff]
    constructor
    · intro hdisjoint hmem
      apply hdisjoint "on_arch_conditional"
      exact ⟨contains_iff_mem_names.mpr hmem, (cask_contains_iff_of_mem_names hmem).mpr rfl⟩
    · intro habsent name hboth
      have hmem := contains_iff_mem_names.mp hboth.1
      rw [(cask_contains_iff_of_mem_names hmem).mp hboth.2] at hmem
      exact habsent hmem

/-- A release that is called `arch_conditional` meets the stanza of this name. -/
theorem arch_conditional_meets_cask :
    "on_arch_conditional" ∈ (ofReleases ["sonoma", "arch_conditional"]).value.names ∧
      Schema.cask.contains ⟨"on_arch_conditional"⟩ = true := by
  have hmem : "on_arch_conditional" ∈ (ofReleases ["sonoma", "arch_conditional"]).value.names := by
    decide
  exact ⟨hmem, ((names_meet_cask_in_one ["sonoma", "arch_conditional"]).1 _ hmem).mpr rfl⟩

end BlockNames
end CaskOrder
