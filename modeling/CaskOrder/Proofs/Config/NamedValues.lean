import CaskOrder.OnSystem.Target
import CaskOrder.Proofs.Json.Choices
import CaskOrder.Proofs.OnSystem.Lookup
import CaskOrder.Schema.Verdict

/-!
# Verdicts and architectures as texts

Verdicts and architectures are read by their names, which may be written with any escapes, as
a string or as the key of an object with `null` behind it.  No other text is read as either.
-/

namespace CaskOrder

theorem Verdict.name_injective : Function.Injective Verdict.name := by
  intro verdict other h
  revert h
  cases verdict <;> cases other <;> decide

theorem Verdict.mem_all (verdict : Verdict) : verdict ∈ Verdict.all := by
  cases verdict <;> decide

theorem Arch.mem_all (arch : Arch) : arch ∈ Arch.all := by
  cases arch <;> decide

theorem verdicts_and_architectures_read_by_name :
    Verdict.reader.ReadsNames Verdict.name ∧ Arch.reader.ReadsNames Arch.tag :=
  ⟨Json.choice_readsNames Verdict.name_injective Verdict.mem_all,
    Json.choice_readsNames (fun _ _ => Target.arch_tag_injective) Arch.mem_all⟩

/-- A second member is one too many, also if it is the same as the first one. -/
example :
    (Verdict.reader.parse " \"same\\u005fgroup\"\n").toOption = some .sameGroup ∧
      (Arch.reader.parse "\x7b \"arm\" : null \x7d").toOption = some .arm ∧
      (Arch.reader.parse "\x7b\"arm\":null,\"arm\":null\x7d").toOption = none ∧
      (Arch.reader.parse "\x7b\"arm\":\x7b\x7d\x7d").toOption = none := by
  decide +kernel

end CaskOrder
