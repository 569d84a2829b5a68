import CaskOrder.OnSystem.Target
import CaskOrder.Proofs.Config.Platform
import CaskOrder.Proofs.Json.ValueFaults
import CaskOrder.Schema.Verdict

/-!
# Where errors are reported

Whatever is read from a text, the place of an error is a byte of the text or its end, and it is the
end if the text is incomplete.  This holds of stanzas, groups, verdicts and architectures, of group
tables and platforms, and so of schemas and block names that are configured.
-/

namespace CaskOrder

open Json (StaysInside)

theorem Stanza.staysInside_reader : StaysInside Stanza.reader.read :=
  Json.staysInside_string.andThen_ok Stanza.mk

theorem Group.staysInside_reader : StaysInside Group.reader.read :=
  Json.staysInside_listOf Stanza.staysInside_reader

theorem GroupTable.staysInside_reader : StaysInside GroupTable.reader.read :=
  Json.staysInside_record (Json.staysInside_listOf Group.staysInside_reader)

theorem platformReader_staysInside : StaysInside platformReader.read :=
  Json.staysInside_record (Json.staysInside_listOf Json.staysInside_string)

/-- Each reader reports its errors behind some of the bytes of the text, with line and column
counted up to there, and an incomplete text behind all of them.  So are the errors of schemas and
block names that cannot be read from a text. -/
theorem errors_placed_in_texts :
    (Stanza.reader.PlacesErrors ∧ Group.reader.PlacesErrors ∧ Verdict.reader.PlacesErrors ∧
        Arch.reader.PlacesErrors ∧ GroupTable.reader.PlacesErrors ∧ platformReader.PlacesErrors) ∧
      (∀ text error, (Schema.ofJson text).value = .error (.unreadable error) →
        ∃ place, error.PlacedIn text place) ∧
      ∀ text error, (BlockNames.ofJson text).value = .error error →
        ∃ place, error.PlacedIn text place := by
  refine ⟨⟨?_, ?_, ?_, ?_, ?_, ?_⟩, ?_, ?_⟩
  · exact Stanza.staysInside_reader.placesErrors
  · exact Group.staysInside_reader.placesErrors
  · exact (Json.staysInside_choice _).placesErrors
  · exact (Json.staysInside_choice _).placesErrors
  · exact GroupTable.staysInside_reader.placesErrors
  · exact platformReader_staysInside.placesErrors
  · intro text error h
    have hparse := Schema.ofJson_unreadable_iff.mp h
    rcases GroupTable.staysInside_reader.placesErrors text error hparse with
      ⟨fault, place, -, -, -, hplaced⟩
    exact ⟨place, hplaced⟩
  · intro text error h
    have hparse := BlockNames.ofJson_eq_error_iff.mp h
    rcases platformReader_staysInside.placesErrors text error hparse with
      ⟨fault, place, -, -, -, hplaced⟩
    exact ⟨place, hplaced⟩

theorem exists_eq_error_of_mapError {outcome : Except ε α} {f : ε → δ} {d : δ}
    (h : outcome.mapError f = .error d) : ∃ error, outcome = .error error ∧ f error = d := by
  cases outcome with
  | ok a => cases h
  | error error =>
      cases h
      exact ⟨error, rfl, rfl⟩

/-- A wrong escape is placed inside the character that it ends in.  The other text ends on its
second line, in the digits of an escape behind a character of two bytes, and is as incomplete as a
platform as it is as a group table. -/
theorem errors_placed_in_character_and_at_end :
    (∃ error, Stanza.reader.parse "\"\\u00aé\"" = .error error ∧
        error.PlacedIn "\"\\u00aé\"" 7) ∧
      (∃ error, (Schema.ofJson "\x7b\"order\":\n[\"é\\u00").value = .error (.unreadable error) ∧
        error.position = ⟨2, 8⟩ ∧ error.PlacedIn "\x7b\"order\":\n[\"é\\u00" 18) ∧
      ∃ error, (BlockNames.ofJson "\x7b\"order\":\n[\"é\\u00").value = .error error ∧
        error.position = ⟨2, 8⟩ ∧ error.PlacedIn "\x7b\"order\":\n[\"é\\u00" 18 := by
  rcases errors_placed_in_texts with ⟨⟨hstanza, -⟩, hschema, hnames⟩
  refine ⟨?_, ?_, ?_⟩
  · have hparse : (Stanza.reader.parse "\"\\u00aé\"").mapError (fun _ => ()) = .error () := by
      decide +kernel
    have hread : (Stanza.reader.readWhole "\"\\u00aé\"".toList).mapError (·.left) = .error 2 := by
      decide +kernel
    rcases exists_eq_error_of_mapError hparse with ⟨error, herror, -⟩
    rcases exists_eq_error_of_mapError hread with ⟨fault, hfault, hleft⟩
    rcases hstanza _ error herror with ⟨fault', place, hfault', -, hsize, hplaced⟩
    have hsame : fault = fault' := Except.error.inj (hfault.symm.trans hfault')
    have hplace : place = 7 := by
      rw [← hsame, hleft] at hsize
      exact Nat.add_right_cancel hsize
    rw [hplace] at hplaced
    exact ⟨error, herror, hplaced⟩
  · have hparse : (GroupTable.reader.parse "\x7b\"order\":\n[\"é\\u00").mapError
        (fun error => (error.cause.category, error.position)) = .error (.incomplete, ⟨2, 8⟩) := by
      decide +kernel
    rcases exists_eq_error_of_mapError hparse with ⟨error, herror, hfound⟩
    rw [Prod.mk.injEq] at hfound
    have hload := Schema.ofJson_unreadable_iff.mpr herror
    rcases hschema _ error hload with ⟨place, hplaced⟩
    cases hplaced.at_end hfound.1
    exact ⟨error, hload, hfound.2, hplaced⟩
  · have hparse : (platformReader.parse "\x7b\"order\":\n[\"é\\u00").mapError
        (fun error => (error.cause.category, error.position)) = .error (.incomplete, ⟨2, 8⟩) := by
      decide +kernel
    rcases exists_eq_error_of_mapError hparse with ⟨error, herror, hfound⟩
    rw [Prod.mk.injEq] at hfound
    have hload := BlockNames.ofJson_eq_error_iff.mpr herror
    rcases hnames _ error hload with ⟨place, hplaced⟩
    cases hplaced.at_end hfound.1
    exact ⟨error, hload, hfound.2, hplaced⟩

end CaskOrder
