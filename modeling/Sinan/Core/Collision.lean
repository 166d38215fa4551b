import Sinan.Core.Executable
import Sinan.Lib.Text
import Sinan.Store.Recommit

/-!
# Commands of different intents

The ids of a first command join the intent id and the leg id with a colon, and a colon may stand in
either of them.  A joined text that can be split at two of its colons is the id of two commands.
-/

set_option linter.unusedSectionVars false

namespace Sinan.Core

open Lib Store Execution

/-! ## joined ids -/

/-- `j` goes on behind `i` with a word that `a` begins with; what is left of `a` is `b` -/
def Overlaps (i j : IntentId) (a b : LegId) : Prop :=
  ∃ w : String, j = i ++ ":" ++ w ∧ a = w ++ ":" ++ b

theorem toList_joined (x y : String) : (x ++ ":" ++ y).toList = x.toList ++ ':' :: y.toList := by
  rw [String.toList_append, String.toList_append, List.append_assoc]
  rfl

theorem joined_iff {x y z : String} : x = y ++ ":" ++ z ↔ x.toList = y.toList ++ ':' :: z.toList := by
  rw [← toList_joined]
  exact String.toList_inj.symm

theorem overlaps_iff {i j : IntentId} {a b : LegId} :
    Overlaps i j a b ↔
      ∃ w : List Char, j.toList = i.toList ++ ':' :: w ∧ a.toList = w ++ ':' :: b.toList := by
  constructor
  · rintro ⟨w, hj, ha⟩
    exact ⟨w.toList, joined_iff.mp hj, joined_iff.mp ha⟩
  · rintro ⟨w, hj, ha⟩
    refine ⟨String.ofList w, joined_iff.mpr ?_, joined_iff.mpr ?_⟩
    · rw [String.toList_ofList]
      exact hj
    · rw [String.toList_ofList]
      exact ha

theorem initialCommandId_eq_iff {i j : IntentId} {a b : LegId} :
    initialCommandId i a = initialCommandId j b ↔
      (i = j ∧ a = b) ∨ Overlaps i j a b ∨ Overlaps j i b a := by
  have hjoined : initialCommandId i a = initialCommandId j b ↔
      i.toList ++ ':' :: a.toList = j.toList ++ ':' :: b.toList := by
    show "command:" ++ i ++ ":" ++ a = "command:" ++ j ++ ":" ++ b ↔ _
    rw [← toList_joined, ← toList_joined, String.toList_inj]
    simp only [String.append_assoc, String.append_right_inj]
  rw [hjoined, join_eq_iff, overlaps_iff, overlaps_iff, String.toList_inj, String.toList_inj]

theorem initialCommandIdempotencyKey_eq_iff {i j : IntentId} {a b : LegId} :
    initialCommandIdempotencyKey i a = initialCommandIdempotencyKey j b ↔
      initialCommandId i a = initialCommandId j b := by
  show initialCommandId i a ++ ":initial" = initialCommandId j b ++ ":initial" ↔ _
  exact String.append_left_inj ":initial"

theorem not_overlaps_self (i : IntentId) (a b : LegId) : ¬ Overlaps i i a b := by
  intro h
  obtain ⟨w, hi, -⟩ := overlaps_iff.mp h
  have hlength := congrArg List.length hi
  rw [List.length_append, List.length_cons] at hlength
  omega

theorem length_singleLegId (i : IntentId) :
    (singleLegId i).toList.length = i.toList.length + 6 := by
  show ("leg:" ++ i ++ ":0").toList.length = _
  rw [String.toList_append, String.toList_append, List.length_append, List.length_append]
  show 4 + i.toList.length + 2 = _
  omega

/-- The derived leg is longer than its intent, so the legs of two intents without explicit legs
do not overlap. -/
theorem not_overlaps_single (i j : IntentId) : ¬ Overlaps i j (singleLegId i) (singleLegId j) := by
  intro h
  obtain ⟨w, hj, hleg⟩ := overlaps_iff.mp h
  have hlength := congrArg List.length hj
  have hlegs := congrArg List.length hleg
  rw [List.length_append, List.length_cons] at hlength
  rw [List.length_append, List.length_cons, length_singleLegId, length_singleLegId] at hlegs
  omega

/-! ## stored commands -/

def Carries {F : Type} (command : ExecutionCommand F) (intentId : IntentId) (legId : LegId) : Prop :=
  command.commandId = initialCommandId intentId legId ∧
    command.idempotencyKey = initialCommandIdempotencyKey intentId legId

/-- The two legs share no id, and no insert of the second finds a stored command of the first among
the rows it conflicts with. -/
structure Apart (P F : Type) (i j : IntentId) (a b : LegId) : Prop where
  ids : initialCommandId i a ≠ initialCommandId j b
  keys : initialCommandIdempotencyKey i a ≠ initialCommandIdempotencyKey j b
  stored : ∀ (t : WorkflowTables P F) (row : CommandRow F) (command : ExecutionCommand F),
    row ∈ t.commands.rows → Carries row.command i a → Carries command j b →
      row ∉ commandConflicts t command

section
variable {P F : Type} [DecidableEq P] [DecidableEq F] [F64 F] {i j : IntentId} {a b : LegId}

theorem notMem_commandConflicts {t : WorkflowTables P F} {row : CommandRow F}
    {command : ExecutionCommand F} (hids : row.command.commandId ≠ command.commandId)
    (hkeys : row.command.idempotencyKey ≠ command.idempotencyKey) :
    row ∉ commandConflicts t command := by
  intro hmem
  have heither := (List.mem_filter.mp hmem).2
  rw [Bool.or_eq_true, beq_iff_eq, beq_iff_eq] at heither
  rcases heither with hid | hkey
  · exact hids hid
  · exact hkeys hkey

theorem apart_of_ids (h : initialCommandId i a ≠ initialCommandId j b) : Apart P F i j a b := by
  have hkeys : initialCommandIdempotencyKey i a ≠ initialCommandIdempotencyKey j b :=
    fun heq => h (initialCommandIdempotencyKey_eq_iff.mp heq)
  refine ⟨h, hkeys, fun t row command _ hrow hcommand => ?_⟩
  apply notMem_commandConflicts
  · rw [hrow.1, hcommand.1]
    exact h
  · rw [hrow.2, hcommand.2]
    exact hkeys

theorem apart_iff :
    Apart P F i j a b ↔ ¬ (i = j ∧ a = b) ∧ ¬ Overlaps i j a b ∧ ¬ Overlaps j i b a := by
  rw [← not_or, ← not_or, ← initialCommandId_eq_iff]
  exact ⟨Apart.ids, apart_of_ids⟩

theorem apart_same_intent (h : a ≠ b) : Apart P F i i a b :=
  apart_iff.mpr ⟨fun hsame => h hsame.2, not_overlaps_self i a b, not_overlaps_self i b a⟩

theorem apart_single (h : i ≠ j) : Apart P F i j (singleLegId i) (singleLegId j) :=
  apart_iff.mpr ⟨fun hsame => h hsame.1, not_overlaps_single i j, not_overlaps_single j i⟩

/-- Different legs are kept apart exactly when neither intent id goes on behind the other with the
words that the other's leg id begins with. -/
theorem initial_commands_apart_iff (h : (i, a) ≠ (j, b)) :
    Apart P F i j a b ↔ ¬ Overlaps i j a b ∧ ¬ Overlaps j i b a := by
  rw [apart_iff]
  refine and_iff_right fun hsame => h ?_
  rw [hsame.1, hsame.2]

end

/-! ## samples -/

/-- two legs of one intent, and legs of two intents of which one id goes on behind the other -/
theorem initial_commands_apart_legs :
    Apart String ℚ "intent-1" "intent-1" "leg:intent-1:0" "leg-2" ∧
      Apart String ℚ "intent-1" "intent-1:b" "leg:intent-1:0" "leg-2" := by
  refine ⟨(initial_commands_apart_iff (by decide)).mpr
      ⟨not_overlaps_self _ _ _, not_overlaps_self _ _ _⟩,
    (initial_commands_apart_iff (by decide)).mpr ⟨?_, ?_⟩⟩
  · intro h
    obtain ⟨w, -, hleg⟩ := overlaps_iff.mp h
    have hlast := congrArg List.getLast? hleg
    rw [List.getLast?_append_cons] at hlast
    exact absurd hlast (by decide)
  · intro h
    obtain ⟨w, hintent, -⟩ := overlaps_iff.mp h
    have hlength := congrArg List.length hintent
    rw [List.length_append, List.length_cons] at hlength
    have hshorter : "intent-1".toList.length < "intent-1:b".toList.length := by decide
    omega

/-- a first command of this leg -/
def goldLegCommand (intentId : IntentId) (legId : LegId) : NewExecutionCommand ℚ where
  command :=
    { goldCommand with
      commandId := initialCommandId intentId legId
      idempotencyKey := initialCommandIdempotencyKey intentId legId
      legId := some legId }
  riskId := initialRiskId intentId
  createdAt := 10000

/-- The leg `x:y` of the intent `i` and the leg `y` of the intent `i:x` share their ids; the command
that is stored second is refused for good. -/
theorem initial_commands_collide :
    ("i", "x:y") ≠ ("i:x", "y") ∧ initialCommandId "i" "x:y" = initialCommandId "i:x" "y" ∧
      initialCommandIdempotencyKey "i" "x:y" = initialCommandIdempotencyKey "i:x" "y" ∧
      ((do
        let first ← insertExecutionCommand (goldLegCommand "i" "x:y")
        let second ← insertExecutionCommand (goldLegCommand "i:x" "y")
        return (first, second) : Statement String ℚ (Bool × Bool)) emptyWorkflows).1 =
        .error (.identityConflict "execution_command" "command_id=command:i:x:y") := by
  decide +kernel

end Sinan.Core
