import Sinan.Inbound.Redelivery

/-!
# What a connection takes, it takes once

A connection takes a message only above the last sequence number it took, and no other connection has its
session id.  So no two messages are taken under one session and number, and the answer `Duplicate`,
which is for a message that has a row under both, is never given.
-/

namespace Sinan.Inbound

open Lib

set_option linter.unusedSectionVars false

section
variable {B P T : Type} [DecidableEq P] {wire : WireReader B P T} {codec : EnvelopeCodec P} {W : Type}
  {world world' : GatewayWorld codec W} {index : Nat} {bytes : B} {receivedAt : Int}
  {done : Option InboundAdmission × ActiveConnection × InboundTables codec}

theorem delivered_taken (h : delivered wire world index bytes receivedAt = some (.ok done)) :
    ∃ conn sequence, world.connections[index]? = some conn ∧ conn.lastInboundSequence < sequence ∧
      done.2.1 = { conn with lastInboundSequence := sequence } ∧
      ((done.1 = none ∧ done.2.2 = world.recovery.tables) ∨ ∃ a outcome,
        a.sessionId = conn.context.sessionId ∧ a.sequence = sequence ∧
        admitInbound world.recovery.tables a = .ok (outcome, done.2.2) ∧
        done.1 = some (DurableInboundAdmissionOutcome.answer (P := P) outcome)) := by
  obtain ⟨answer, conn', tables'⟩ := done
  obtain ⟨conn, hconn, h⟩ := delivered_ok h
  simp only [handleMessage, checkMessage, bind_ok, mapError_ok, exists_unit, reject_ok, need_ok,
    pure_ok, Prod.exists] at h
  obtain ⟨message, sequence, ⟨decoded, -, -, -, next, -, hnext, hpair⟩, h⟩ := h
  cases hpair
  refine ⟨conn, sequence, hconn, by omega, ?_⟩
  split at h
  · cases h
    exact ⟨rfl, .inl ⟨rfl, rfl⟩⟩
  · simp only [bind_ok, mapError_ok, pure_ok, Prod.exists] at h
    obtain ⟨envelope, -, outcome, written, hadmitted, hdone⟩ := h
    cases hdone
    exact ⟨rfl, .inr ⟨_, outcome, rfl, rfl, hadmitted, rfl⟩⟩

/-! ## one step -/

/-- the connections keep their contexts, and their numbers grow -/
def Past (world world' : GatewayWorld codec W) : Prop :=
  ∀ (c : Nat) (conn : ActiveConnection), world.connections[c]? = some conn →
    ∃ conn' : ActiveConnection, world'.connections[c]? = some conn' ∧ conn'.context = conn.context ∧
      conn.lastInboundSequence ≤ conn'.lastInboundSequence

/-- a connection of the session is past the number -/
def Taken (world : GatewayWorld codec W) (a : NewInboundAdmission P) : Prop :=
  ∃ (c : Nat) (conn : ActiveConnection), world.connections[c]? = some conn ∧
    conn.context.sessionId = a.sessionId ∧ a.sequence ≤ conn.lastInboundSequence

/-- a row was there before, or is of a message that a connection has taken -/
structure Takes (world world' : GatewayWorld codec W) : Prop where
  past : Past world world'
  rows : ∀ m row, world'.recovery.rowOf m = some row → Taken world' row.toNewInboundAdmission ∨
    ∃ old, world.recovery.rowOf m = some old ∧ row.toNewInboundAdmission = old.toNewInboundAdmission

theorem takes_still (hpast : Past world world') (h : world'.recovery = world.recovery) :
    Takes world world' := ⟨hpast, fun _ row hrow => .inr ⟨row, h ▸ hrow, rfl⟩⟩

theorem Takes.refl (world : GatewayWorld codec W) : Takes world world :=
  takes_still (fun _ conn h => ⟨conn, h, rfl, le_rfl⟩) rfl

theorem Takes.trans {a b c : GatewayWorld codec W} (hab : Takes a b) (hbc : Takes b c) :
    Takes a c := by
  refine ⟨fun i conn h => ?_, fun m row hrow => ?_⟩
  · obtain ⟨conn', h', hcontext, hle⟩ := hab.past i conn h
    obtain ⟨conn'', h'', hcontext', hle'⟩ := hbc.past i conn' h'
    exact ⟨conn'', h'', hcontext'.trans hcontext, hle.trans hle'⟩
  · rcases hbc.rows m row hrow with htaken | ⟨old, hold, hsame⟩
    · exact .inl htaken
    · rw [hsame]
      refine (hab.rows m old hold).imp_left ?_
      rintro ⟨i, conn, hconn, hsession, hsequence⟩
      obtain ⟨conn', hconn', hcontext, hle⟩ := hbc.past i conn hconn
      exact ⟨i, conn', hconn', by rw [hcontext, hsession], hsequence.trans hle⟩

theorem takes_call (call : InboundCall P W) (hpast : Past world world')
    (h : world'.recovery = inboundStep world.recovery call)
    (hadmits : ∀ a, call = .admitInbound a → Taken world' a) : Takes world world' := by
  refine ⟨hpast, fun m row hrow => ?_⟩
  rw [h] at hrow
  have hchanged : ∀ {old changed : StoredInboundAdmission P},
      Rewritten world.recovery.tables (inboundStep world.recovery call).tables old changed →
      changed.toNewInboundAdmission = old.toNewInboundAdmission →
      ∃ old, world.recovery.rowOf m = some old ∧
        row.toNewInboundAdmission = old.toNewInboundAdmission := by
    intro old changed hrewritten hsame
    rw [RecoveryWorld.rowOf, hrewritten.get m] at hrow
    split at hrow
    case isTrue hm => exact ⟨old, hm ▸ hrewritten.found, Option.some.inj hrow ▸ hsame⟩
    case isFalse => exact ⟨row, hrow, rfl⟩
  cases inboundStep_effect world.recovery call with
  | still _ _ _ hrows => exact .inr ⟨row, by rwa [RecoveryWorld.rowOf, ← hrows], rfl⟩
  | admitted a _ _ _ hcall hinsert =>
    rw [RecoveryWorld.rowOf, Table.get_insert hinsert] at hrow
    split at hrow
    · cases hrow
      exact .inl (hadmits a hcall)
    · exact .inr ⟨row, hrow, rfl⟩
  | claimed _ _ _ _ _ _ _ _ htaken => exact .inr (hchanged htaken rfl)
  | finished _ _ _ _ _ _ _ hdone => exact .inr (hchanged hdone.rewritten rfl)

theorem deliver_takes (world : GatewayWorld codec W) (index : Nat) (bytes : B) (receivedAt : Int)
    (acknowledged : Bool) :
    Takes world (deliverMessage wire world index bytes receivedAt acknowledged) := by
  unfold deliverMessage
  cases h : delivered wire world index bytes receivedAt with
  | none => exact Takes.refl world
  | some result =>
    cases result with
    | error e =>
      refine takes_still (fun c conn hconn =>
        ⟨if index = c then { conn with closed := true } else conn, ?_⟩) rfl
      refine ⟨?_, by split <;> rfl, by split <;> exact le_rfl⟩
      rw [List.getElem?_modify, hconn]
      rfl
    | ok done =>
      obtain ⟨conn, sequence, hconn, hnext, hnew, hadmits⟩ := delivered_taken h
      have hset := List.getElem?_set_self (a := { done.2.1 with closed := !acknowledged })
        (List.getElem?_eq_some_iff.mp hconn).1
      have hpast : Past world ⟨{ world.recovery with tables := done.2.2 },
          world.connections.set index { done.2.1 with closed := !acknowledged }⟩ := by
        intro c old hold
        by_cases hc : index = c
        · subst hc
          cases hconn.symm.trans hold
          exact ⟨_, hset, by rw [hnew], by rw [hnew]; exact hnext.le⟩
        · exact ⟨old, (List.getElem?_set_ne hc).trans hold, rfl, le_rfl⟩
      rcases hadmits with ⟨-, hsame⟩ | ⟨a, outcome, hsession, hsequence, hadmitted, -⟩
      · exact takes_still hpast (congrArg ({ world.recovery with tables := · }) hsame)
      · refine takes_call _ hpast (admit_tables hadmitted).symm fun a' ha' => ?_
        cases ha'
        exact ⟨index, _, hset, by rw [hnew, hsession], by rw [hnew, hsequence]⟩

theorem gatewayStep_takes (world : GatewayWorld codec W) {call : GatewayCall B P W}
    (hcall : ∀ a, call ≠ .work (.admitInbound a)) : Takes world (gatewayStep wire world call) := by
  cases call with
  | connect context =>
    show Takes world (connectSession world context)
    unfold connectSession
    split
    · exact Takes.refl world
    · exact takes_call (.openSession context.sessionId) (fun c conn hconn => ⟨conn,
        (List.getElem?_append_left (List.getElem?_eq_some_iff.mp hconn).1).trans hconn, rfl, le_rfl⟩)
        rfl fun a ha => by cases ha
  | deliver index bytes receivedAt acknowledged =>
    exact deliver_takes world index bytes receivedAt acknowledged
  | work inner =>
    exact takes_call inner (Takes.refl world).past rfl
      fun a ha => absurd (congrArg GatewayCall.work ha) (hcall a)

/-! ## every run -/

/-- In a run whose messages are admitted by the connections only, a message that is taken on a
connection has a number above those taken on it before, and is never answered `Duplicate`. -/
theorem gateway_takes_once (wire : WireReader B P T) (codec : EnvelopeCodec P) (business : W)
    (calls : List (GatewayCall B P W)) (hadmits : ∀ a, .work (.admitInbound a) ∉ calls) (k c : Nat)
    (bytes : B) (receivedAt : Int) {done : Option InboundAdmission × ActiveConnection × InboundTables codec}
    (h : delivered wire (gatewayAt wire codec business calls k) c bytes receivedAt = some (.ok done)) :
    done.1 ≠ some .duplicate ∧
    ∀ i earlier sentAt acknowledged first, i < k →
      calls[i]? = some (.deliver c earlier sentAt acknowledged) →
      delivered wire (gatewayAt wire codec business calls i) c earlier sentAt = some (.ok first) →
      first.2.1.lastInboundSequence < done.2.1.lastInboundSequence := by
  have htakes : ∀ i ≤ k, Takes (gatewayAt wire codec business calls i)
      (gatewayAt wire codec business calls k) := fun i hik =>
    before_related (gatewayStep wire) Takes.refl Takes.trans _ calls hik fun j call _ hj =>
      gatewayStep_takes _ fun a ha => hadmits a (ha ▸ List.mem_of_getElem? hj)
  obtain ⟨conn, sequence, hconn, hnext, hnew, hadmitted⟩ := delivered_taken h
  refine ⟨fun hduplicate => ?_, fun i earlier sentAt acknowledged first hik hi hfirst => ?_⟩
  · rcases hadmitted with ⟨hnone, -⟩ | ⟨a, outcome, hsession, hsequence, hadmitted, hanswer⟩
    · cases hnone.symm.trans hduplicate
    rcases admitInbound_ok hadmitted with ⟨-, rfl, -⟩ | ⟨stored, hstored, hsame, -, -⟩ | ⟨r, rfl, -⟩
    · cases hanswer.symm.trans hduplicate
    · -- the row it repeats was taken, and by this connection
      obtain ⟨c', conn', hconn', hown, hle⟩ := ((htakes 0 (Nat.zero_le k)).rows _ _ hstored).resolve_right
        (by rintro ⟨old, hold, -⟩; cases hold)
      simp only [sameInboundIdentity, Bool.and_eq_true, beq_iff_eq] at hsame
      obtain ⟨⟨⟨⟨⟨⟨⟨⟨⟨⟨-, hsession'⟩, -⟩, -⟩, -⟩, -⟩, -⟩, hsequence'⟩, -⟩, -⟩, -⟩ := hsame
      have hseated : Seated (gatewayAt wire codec business calls k) := gateway_seated wire business calls k
      have hsessions := hseated.apart
      rw [GatewayWorld.contexts, List.map_map] at hsessions
      have hconn_eq : conn' = conn := List.inj_on_of_nodup_map hsessions
        (List.mem_of_getElem? hconn') (List.mem_of_getElem? hconn)
        (hown.trans (hsession'.trans hsession))
      rw [hconn_eq] at hle
      omega
    · cases hanswer.symm.trans hduplicate
  · obtain ⟨old, number, hold, -, hnumber, -⟩ := delivered_taken hfirst
    have htaken : (gatewayAt wire codec business calls (i + 1)).connections[c]? =
        some { first.2.1 with closed := !acknowledged } := by
      unfold gatewayAt at hold hfirst ⊢
      rw [before_succ (gatewayStep wire) _ hi]
      simp only [gatewayStep, deliverMessage, hfirst]
      exact List.getElem?_set_self (List.getElem?_eq_some_iff.mp hold).1
    obtain ⟨conn', hconn', -, hle⟩ := (htakes (i + 1) hik).past c _ htaken
    obtain rfl := Option.some.inj (hconn.symm.trans hconn')
    rw [hnew]
    exact Nat.lt_of_le_of_lt hle hnext

end

theorem gateway_takes_once_sample : ∃ done,
    delivered sampleReader (gatewayAt sampleReader sampleCodec 0 resendCalls 3) 1 ("event", "second", 1) 9 =
      some (.ok done) ∧ done.1 ≠ some .duplicate :=
  ⟨_, rfl, (gateway_takes_once sampleReader sampleCodec 0 resendCalls (by simp [resendCalls]) 3 1
    ("event", "second", 1) 9 rfl).1⟩

end Sinan.Inbound
