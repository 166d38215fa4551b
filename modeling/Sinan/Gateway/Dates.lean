import Sinan.Gateway.Stored

/-!
# The dates of a message

The date of creation of an outbox row is fixed when its message is enqueued, and no later date of the
row comes before it.  What is told of a delivery carries the dates of its row.
-/

set_option linter.unusedSectionVars false

namespace Sinan.Gateway

open Lib Execution Store

section
variable {P : Type} [DecidableEq P] {codec : WireCodec P} {t t' : DeliveryTables P}
  {m : MessageId} {o o' : StoredWireOutbox P}

structure Ordered (o : StoredWireOutbox P) : Prop where
  updated : o.createdAt ≤ o.updatedAt
  sent : ∀ time, o.sentAt = some time → o.createdAt ≤ time

/-- the row is the same message, later -/
structure Later (o o' : StoredWireOutbox P) : Prop where
  createdAt : o'.createdAt = o.createdAt
  ordered : Ordered o → Ordered o'

theorem Later.refl (o : StoredWireOutbox P) : Later o o := ⟨rfl, id⟩

theorem Later.trans {o₁ o₂ o₃ : StoredWireOutbox P} (h₁ : Later o₁ o₂) (h₂ : Later o₂ o₃) :
    Later o₁ o₃ :=
  ⟨h₂.createdAt.trans h₁.createdAt, fun h => h₂.ordered (h₁.ordered h)⟩

theorem outboxCheck_sent (h : outboxCheck o = true) {time : Int} (hsent : o.sentAt = some time) :
    o.createdAt ≤ time := by
  simp only [outboxCheck, Bool.and_eq_true] at h
  have hall := h.1.1.1.1.1.2
  rw [hsent] at hall
  exact of_decide_eq_true hall

theorem step_later (h : OutboxStep o o') : Later o o' := by
  have hcreated : o'.createdAt = o.createdAt := by rw [h.definition]
  refine ⟨hcreated, fun hordered => ⟨?_, fun time hsent => outboxCheck_sent h.check hsent⟩⟩
  rw [hcreated]
  exact le_trans hordered.updated h.updatedAt

/-- every row is an earlier row, later, or one of the `fresh` -/
def Aged (t t' : DeliveryTables P) (fresh : MessageId → StoredWireOutbox P → Prop) : Prop :=
  ∀ m o', t'.outboxes.get m = some o' →
    (∃ o, t.outboxes.get m = some o ∧ Later o o') ∨ fresh m o'

/-- no row is fresh -/
def noFresh (_ : MessageId) (_ : StoredWireOutbox P) : Prop := False

theorem aged_refl (t : DeliveryTables P) : Aged t t noFresh :=
  fun _ o' hget => .inl ⟨o', hget, .refl o'⟩

theorem Aged.trans {t₁ t₂ t₃ : DeliveryTables P} (h₁ : Aged t₁ t₂ noFresh)
    (h₂ : Aged t₂ t₃ noFresh) : Aged t₁ t₃ noFresh := by
  intro m o₃ hget
  obtain ⟨o₂, hget₂, hlater₂⟩ := (h₂ m o₃ hget).resolve_right id
  obtain ⟨o₁, hget₁, hlater₁⟩ := (h₁ m o₂ hget₂).resolve_right id
  exact .inl ⟨o₁, hget₁, hlater₁.trans hlater₂⟩

theorem write_aged {l : Licence} (h : Write l t t') (hcreates : ¬ l.creates) : Aged t t' noFresh := by
  intro k row hget
  refine .inl ?_
  cases h with
  | message h =>
    rw [h.outboxes] at hget
    split at hget
    · rename_i hk
      cases hget
      refine ⟨_, hk ▸ h.outbox, ?_⟩
      rcases h.move.outbox with hsame | ⟨hstep, -⟩
      · rw [hsame]
        exact .refl _
      · exact step_later hstep
    · exact ⟨row, hget, .refl row⟩
  | session _ houtboxes =>
    rw [houtboxes] at hget
    exact ⟨row, hget, .refl row⟩
  | created hc => exact absurd hc hcreates

theorem writes_aged {l : Licence} (h : Writes l t t') (hcreates : ¬ l.creates) :
    Aged t t' noFresh := by
  induction h with
  | refl => exact aged_refl t
  | tail _ hlast ih => exact ih.trans (write_aged hlast hcreates)

/-- a preparation may enqueue its message, at its time and when the request was valid -/
def enqueuedAt (m : MessageId) (now : Int) (validation : RequestCheck) (k : MessageId)
    (row : StoredWireOutbox P) : Prop :=
  k = m ∧ validation = .ok () ∧ row.createdAt = now ∧ Ordered row

theorem Preparation.aged {now : Int} {validation : RequestCheck} {prepared : PreparedDelivery P}
    (h : Preparation t t' m now validation prepared) :
    Aged t t' (enqueuedAt m now validation) := by
  intro k row hget
  cases h with
  | told _ hsame | resumed _ hsame =>
    rw [hsame] at hget
    exact .inl ⟨row, hget, .refl row⟩
  | rejected _ _ houtboxes =>
    rw [houtboxes] at hget
    exact .inl ⟨row, hget, .refl row⟩
  | enqueued _ _ hvalid houtboxes hrow =>
    rw [houtboxes] at hget
    split at hget
    · rename_i hk
      cases hget
      obtain ⟨-, hcreated, hupdated, hsent⟩ := hrow
      refine .inr ⟨hk.symm, hvalid, hcreated, hupdated, fun time htime => ?_⟩
      rw [hsent] at htime
      cases htime
    · exact .inl ⟨row, hget, .refl row⟩

theorem Tells.message {d : StoredOutboundDelivery P} {observedAt : Int} {outcome : DeliveryOutcome}
    (h : Tells d observedAt outcome) : outcomeMessage outcome = d.outbox.messageId := by
  cases h with
  | sent _ hm => exact hm
  | unconfirmed => rfl
  | refused => rfl
  | unwritten hm => exact hm

end

end Sinan.Gateway
