import PackPlan.Proofs.Effects
import PackPlan.Proofs.Hints.Reading
import PackPlan.Proofs.Json.Lines

/-!
# What the reading of a hint file comes to

The text of a hint file is read as records, or it is refused as a hint file: with the line on which
the reader stopped if it is not JSON, and otherwise for what it says. But a number of too many
digits stops the reader with a fault of the number, which is no fault of hint files.

## Main definitions

* `Hints.Concludes` — what the reading of a text comes to

## Main results

* `Hints.stopsOnly_readPackItems` — what a document says is refused as a hint file
* `Hints.readDocument_concludes` — what the reading of a text comes to, whatever the text
* `Hints.readDocument_manyOnes` — a text that is neither read nor refused as a hint file
-/

namespace PackPlan.Hints

open Json (Value)
open Attempt

variable {resolver : Resolver} {path : String}

/-- What the reading of the text of a hint file comes to: records; a refusal for what the text
says; a refusal with the line on which the text stops being the beginning of a document; or the
fault of a number in it that has too many digits. -/
inductive Concludes (path text : String) : Except Fault (List Record) → Prop
  | records (members : List (String × Value)) (records : List Record)
      (document : Json.read text = .ok (.obj members)) : Concludes path text (.ok records)
  | refused (v : Value) (cause : HintCause) (document : Json.read text = .ok v) :
      Concludes path text (.error (.hints { path, cause }))
  | malformed (cause : Json.Cause) (line : Nat)
      (document : Json.read text = .error (.malformed cause line))
      (stops : ∀ n, Json.StopsOnLine text.toList n ↔ n = line) :
      Concludes path text
        (.error (.hints { path, line := some line, cause := .malformed cause }))
  | longNumber (n : Nat) (document : Json.read text = .error (.number (.tooManyDigits n)))
      (long : Numeral.maxDigits < n) (run : Json.HasRun n text.toList) :
      Concludes path text (.error (.number (.tooManyDigits n)))

/-! ### Refusals -/

/-- A fault is the refusal of a hint file for what it says. -/
def IsRefusalOf (path : String) (fault : Fault) : Prop := ∃ cause, fault = .hints { path, cause }

theorem stopsOnly_readItem (key : String) (pack : Int) (v : Value) :
    (readItem resolver path key pack v).StopsOnly (IsRefusalOf path) := by
  unfold readItem
  split
  · split
    · exact stopsOnly_throw ⟨_, rfl⟩
    · exact (stopsOnly_forM_tell _).bind fun _ => stopsOnly_pure _
  · exact stopsOnly_throw ⟨_, rfl⟩

theorem stopsOnly_readPackItems (m : String × Value) :
    (readPackItems resolver path m).StopsOnly (IsRefusalOf path) := by
  unfold readPackItems
  dsimp only
  split
  · exact stopsOnly_throw ⟨_, rfl⟩
  · split
    · exact isStepwise_stopsOnly.mapM fun v _ => stopsOnly_readItem m.1 _ v
    · exact stopsOnly_throw ⟨_, rfl⟩

/-- A number stops the reader for its digits alone. -/
theorem exists_of_read_number {text : String} {cause : Numeral.ReadFault}
    (h : Json.read text = .error (.number cause)) :
    ∃ n, cause = .tooManyDigits n ∧ Numeral.maxDigits < n ∧ Json.HasRun n text.toList := by
  rw [Json.read] at h
  split at h
  · cases h
  · cases h
  · next document =>
    cases h
    exact Json.stopsIn_of_readDocument document

theorem concludes_of_stopsOnly {text : String} {members : List (String × Value)}
    {m : Attempt (List Record)} (document : Json.read text = .ok (.obj members))
    (stops : m.StopsOnly (IsRefusalOf path)) : Concludes path text m.run.1 := by
  cases result : m.run.1 with
  | ok records => exact .records members records document
  | error fault =>
    obtain ⟨cause, rfl⟩ := stops [] fault result
    exact .refused (.obj members) cause document

/-- Whatever the text is, it is read as records, or refused as a hint file, with the line if it is
malformed, or it has a number of too many digits. What is read is made of characters: where an
escape names half of a surrogate pair by itself, there is a replacement character. -/
theorem readDocument_concludes (resolver : Resolver) (path text : String) :
    Concludes path text (readDocument resolver path text).run.1 := by
  unfold readDocument
  split
  · next cause line document =>
    exact .malformed cause line document (Json.stopsOnLine_iff_of_read document)
  · next cause document =>
    obtain ⟨n, rfl, long, run⟩ := exists_of_read_number document
    exact .longNumber n document long run
  · next members document =>
    refine concludes_of_stopsOnly document ?_
    exact (isStepwise_stopsOnly.mapM fun m _ => stopsOnly_readPackItems m).bind fun _ =>
      stopsOnly_pure _
  · next v _ document => exact .refused v .noObject document

example : (readDocument .none "a" "[1,\n2 3]\n").run.1 =
    .error (.hints { path := "a", line := some 2, cause := .malformed .comma }) := by
  decide +kernel

theorem run_readDocument_of_number {text : String} {cause : Numeral.ReadFault}
    (resolver : Resolver) (path : String) (h : Json.read text = .error (.number cause)) :
    (readDocument resolver path text).run = (.error (.number cause), []) := by
  rw [readDocument, h]
  rfl

/-- One more digit than a number may have. -/
def manyOnes : String := String.ofList (List.replicate 4301 '1')

theorem read_manyOnes : Json.read manyOnes = .error (.number (.tooManyDigits 4301)) := by
  have digits : ∀ c ∈ List.replicate 4301 '1', Json.isDigit c = true := by
    intro c mem
    rw [List.eq_of_mem_replicate mem]
    rfl
  have long : Numeral.maxDigits < (List.replicate 4301 '1').length := by
    rw [List.length_replicate]
    decide
  have front : (List.replicate 4301 '1').head? ≠ some '0' := by
    rw [List.head?_replicate]
    decide
  have document := Json.read_of_manyDigits front digits long
  rw [List.length_replicate] at document
  exact document

/-- A number of too many digits is neither read as records nor refused as a hint file. -/
theorem readDocument_manyOnes :
    (readDocument .none "<hints>" manyOnes).run = (.error (.number (.tooManyDigits 4301)), []) ∧
      ¬ ((∃ records, (readDocument .none "<hints>" manyOnes).run.1 = .ok records) ∨
        ∃ fault, (readDocument .none "<hints>" manyOnes).run.1 = .error (.hints fault)) := by
  have stopped := run_readDocument_of_number .none "<hints>" read_manyOnes
  refine ⟨stopped, ?_⟩
  rw [stopped]
  rintro (⟨records, ok⟩ | ⟨fault, refused⟩)
  · cases ok
  · cases refused

end PackPlan.Hints
