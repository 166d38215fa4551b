import Sinan.Lib.Text
import Sinan.Protocol.Signing

/-!
# What a signing string binds

Two commands with one signing string are one command.  The argument goes from the outside in: the
string is cut at its `&`, which no part contains; the parts carry the same keys, so their percent
encodings agree; the percent encoding of a text determines its bytes and they determine the text; and
the text of a field determines the field, for a number because the signer has read it back.
-/

namespace Sinan.Protocol

open Lib

/-! ## percent encoding is injective -/

theorem utf8Bytes_inj {s t : String} (h : utf8Bytes s = utf8Bytes t) : s = t := by
  have hencode : s.toList.utf8Encode = t.toList.utf8Encode := congrArg List.toByteArray h
  rw [← String.toByteArray_ofList, ← String.toByteArray_ofList, String.ofList_toList,
    String.ofList_toList] at hencode
  exact String.toByteArray_inj.mp hencode

theorem unreserved_bounds {b : UInt8} (h : isUnreserved b = true) :
    b.toNat < 128 ∧ b.toNat ≠ 37 ∧ b.toNat ≠ 38 := by
  simp only [isUnreserved, Bool.or_eq_true, Bool.and_eq_true, decide_eq_true_eq, beq_iff_eq,
    UInt8.le_iff_toNat_le] at h
  rcases h with (((((h | h) | h) | rfl) | rfl) | rfl) | rfl
  · simp only [UInt8.reduceToNat] at h; omega
  · simp only [UInt8.reduceToNat] at h; omega
  · simp only [UInt8.reduceToNat] at h; omega
  all_goals decide

theorem toNat_ofNat_ascii {n : Nat} (h : n < 128) : (Char.ofNat n).toNat = n := by
  have hvalid : n.isValidChar := Or.inl (by omega)
  rw [Char.ofNat, dif_pos hvalid]
  rfl

theorem upperHexDigit_spec {n : Nat} (h : n < 16) :
    hexValue (upperHexDigit n) = some n ∧ upperHexDigit n ≠ '&' := by
  have htable : ∀ m : Fin 16, hexValue (upperHexDigit m) = some m.1 ∧ upperHexDigit m ≠ '&' := by
    decide
  exact htable ⟨n, h⟩

theorem upperHexDigit_inj {m n : Nat} (hm : m < 16) (hn : n < 16)
    (h : upperHexDigit m = upperHexDigit n) : m = n := by
  have hvalue := (upperHexDigit_spec hm).1
  rw [h, (upperHexDigit_spec hn).1] at hvalue
  exact (Option.some.inj hvalue).symm

theorem unreserved_ne_percent {b : UInt8} (h : isUnreserved b = true) :
    Char.ofNat b.toNat ≠ '%' := by
  intro heq
  have hbounds := unreserved_bounds h
  have htoNat := congrArg Char.toNat heq
  rw [toNat_ofNat_ascii hbounds.1] at htoNat
  exact hbounds.2.1 htoNat

theorem encodeByte_append_inj {b c : UInt8} {x y : List Char}
    (h : encodeByte b ++ x = encodeByte c ++ y) : b = c ∧ x = y := by
  unfold encodeByte at h
  by_cases hb : isUnreserved b = true <;> by_cases hc : isUnreserved c = true
  · rw [if_pos hb, if_pos hc, List.singleton_append, List.singleton_append,
      List.cons_eq_cons] at h
    have htoNat := congrArg Char.toNat h.1
    rw [toNat_ofNat_ascii (unreserved_bounds hb).1,
      toNat_ofNat_ascii (unreserved_bounds hc).1] at htoNat
    exact ⟨UInt8.toNat_inj.mp htoNat, h.2⟩
  · rw [if_pos hb, if_neg hc, List.singleton_append, List.cons_append, List.cons_eq_cons] at h
    exact absurd h.1 (unreserved_ne_percent hb)
  · rw [if_neg hb, if_pos hc, List.singleton_append, List.cons_append, List.cons_eq_cons] at h
    exact absurd h.1.symm (unreserved_ne_percent hc)
  · rw [if_neg hb, if_neg hc] at h
    simp only [List.cons_append, List.nil_append, List.cons_eq_cons, true_and] at h
    have hbyte := b.toNat_lt
    have hbyte' := c.toNat_lt
    have hhigh := upperHexDigit_inj (by omega) (by omega) h.1
    have hlow := upperHexDigit_inj (by omega) (by omega) h.2.1
    exact ⟨UInt8.toNat_inj.mp (by omega), h.2.2⟩

theorem flatMap_encodeByte_inj {bs cs : List UInt8}
    (h : bs.flatMap encodeByte = cs.flatMap encodeByte) : bs = cs := by
  have hne : ∀ b, encodeByte b ≠ [] := by
    intro b
    unfold encodeByte
    split <;> exact List.cons_ne_nil _ _
  induction bs generalizing cs with
  | nil =>
    cases cs with
    | nil => rfl
    | cons c cs =>
      rw [List.flatMap_cons] at h
      exact absurd (List.append_eq_nil_iff.mp h.symm).1 (hne c)
  | cons b bs ih =>
    cases cs with
    | nil =>
      rw [List.flatMap_cons] at h
      exact absurd (List.append_eq_nil_iff.mp h).1 (hne b)
    | cons c cs =>
      rw [List.flatMap_cons, List.flatMap_cons] at h
      obtain ⟨rfl, hrest⟩ := encodeByte_append_inj h
      rw [ih hrest]

theorem rfc3986Encode_inj {s t : String} (h : rfc3986Encode s = rfc3986Encode t) : s = t :=
  utf8Bytes_inj (flatMap_encodeByte_inj (String.ofList_injective h))

theorem rfc3986Encode_no_separator (s : String) : '&' ∉ (rfc3986Encode s).toList := by
  intro hmem
  rw [rfc3986Encode, String.toList_ofList, List.mem_flatMap] at hmem
  obtain ⟨b, -, hb⟩ := hmem
  unfold encodeByte at hb
  have hbyte := b.toNat_lt
  split at hb
  · rename_i hun
    have hbounds := unreserved_bounds hun
    have htoNat := congrArg Char.toNat (List.mem_singleton.mp hb)
    rw [toNat_ofNat_ascii hbounds.1] at htoNat
    exact hbounds.2.2 htoNat.symm
  · simp only [List.mem_cons, List.not_mem_nil, or_false] at hb
    rcases hb with hb | hb | hb
    · exact absurd hb (by decide)
    · exact (upperHexDigit_spec (show b.toNat / 16 < 16 by omega)).2 hb.symm
    · exact (upperHexDigit_spec (show b.toNat % 16 < 16 by omega)).2 hb.symm

/-! ## the separators -/

theorem intercalate_inj {ps qs : List String} (hps : ∀ p ∈ ps, '&' ∉ p.toList)
    (hqs : ∀ q ∈ qs, '&' ∉ q.toList) (hp : ps ≠ []) (hq : qs ≠ [])
    (h : String.intercalate "&" ps = String.intercalate "&" qs) : ps = qs := by
  have hlist := congrArg String.toList h
  rw [String.toList_intercalate, String.toList_intercalate] at hlist
  have hsplit : ∀ {rs : List String}, (∀ r ∈ rs, '&' ∉ r.toList) → rs ≠ [] →
      (['&'].intercalate (rs.map String.toList)).splitOn '&' = rs.map String.toList := by
    intro rs hrs hne
    refine List.splitOn_intercalate '&' ?_ (by simpa using hne)
    intro l hl
    obtain ⟨r, hr, rfl⟩ := List.mem_map.mp hl
    exact hrs r hr
  have hmaps : ps.map String.toList = qs.map String.toList := by
    rw [← hsplit hps hp, ← hsplit hqs hq]
    exact congrArg (List.splitOn '&') hlist
  exact List.map_injective_iff.mpr (fun _ _ => String.toList_injective) hmaps

section
variable {F : Type} [F64 F] {format : CommandSigningFormat F}

/-- the two values of the field `key` have one text -/
def SameText (format : CommandSigningFormat F) (key : String) (v v' : SigningValue F) : Prop :=
  ∃ text, signingFieldValue format key v = .ok text ∧ signingFieldValue format key v' = .ok text

variable {key : String}

theorem part_no_separator {text : String} (hkey : '&' ∉ key.toList) :
    '&' ∉ (key ++ "=" ++ rfc3986Encode text).toList := by
  rw [String.toList_append, String.toList_append, List.mem_append, List.mem_append]
  rintro ((h | h) | h)
  · exact hkey h
  · exact absurd h (by decide)
  · exact rfc3986Encode_no_separator text h

theorem signingParts_no_separator {fs : List (String × SigningValue F)} {parts : List String}
    (hkeys : ∀ f ∈ fs, '&' ∉ f.1.toList) (h : signingParts format fs = .ok parts) :
    ∀ p ∈ parts, '&' ∉ p.toList := by
  induction fs generalizing parts with
  | nil =>
    cases h
    exact fun _ hp => absurd hp List.not_mem_nil
  | cons f fs ih =>
    simp only [signingParts, bind_ok, pure_ok] at h
    obtain ⟨text, -, rest, hrest, rfl⟩ := h
    intro p hp
    rcases List.mem_cons.mp hp with rfl | hp
    · exact part_no_separator (hkeys f List.mem_cons_self)
    · exact ih (fun g hg => hkeys g (List.mem_cons_of_mem f hg)) hrest p hp

theorem signingParts_texts {fs fs' : List (String × SigningValue F)} {parts : List String}
    (hkeys : fs.map Prod.fst = fs'.map Prod.fst) (h : signingParts format fs = .ok parts)
    (h' : signingParts format fs' = .ok parts) :
    List.Forall₂ (fun f f' => SameText format f.1 f.2 f'.2) fs fs' := by
  induction fs generalizing fs' parts with
  | nil =>
    have hnil : fs' = [] := List.map_eq_nil_iff.mp hkeys.symm
    rw [hnil]
    exact .nil
  | cons f fs ih =>
    cases fs' with
    | nil => cases hkeys
    | cons f' fs' =>
      simp only [List.map_cons, List.cons.injEq] at hkeys
      simp only [signingParts, bind_ok, pure_ok] at h h'
      obtain ⟨text, htext, rest, hrest, rfl⟩ := h
      obtain ⟨text', htext', rest', hrest', heq⟩ := h'
      obtain ⟨hpart, rfl⟩ := List.cons.inj heq
      rw [← hkeys.1] at htext' hpart
      have hsame : text' = text := rfc3986Encode_inj ((String.append_right_inj _).mp hpart)
      rw [hsame] at htext'
      exact .cons ⟨text, htext, htext'⟩ (ih hkeys.2 hrest hrest')

/-! ## the text of a field determines it -/

theorem SameText.text {a b : String} (h : SameText format key (.text a) (.text b)) :
    a = b := by
  obtain ⟨text, ha, hb⟩ := h
  cases ha
  cases hb
  rfl

theorem absent_text {text : String} (h : signingFieldValue format key .absent = .ok text) :
    text = "" := by
  by_cases hkey : key ∈ optionalFields
  · have hvalue : signingFieldValue format key .absent = .ok "" := if_pos hkey
    rw [hvalue] at h
    exact (Except.ok.inj h).symm
  · have hvalue : signingFieldValue format key .absent = .error (.missingRequiredField key) :=
      if_neg hkey
    rw [hvalue] at h
    cases h

theorem SameText.ofText {a b : Option String} (h : SameText format key (.ofText a) (.ofText b)) :
    a.getD "" = b.getD "" := by
  have hvalue : ∀ (o : Option String) (text : String),
      signingFieldValue format key (.ofText o) = .ok text → o.getD "" = text := by
    intro o text ho
    cases o with
    | none => exact (absent_text ho).symm
    | some value =>
      cases ho
      rfl
  obtain ⟨text, ha, hb⟩ := h
  rw [hvalue a text ha, hvalue b text hb]

theorem SameText.ofName {α : Type} {name : α → String} {a b : Option α}
    (hinj : ∀ x y, name x = name y → x = y) (hne : ∀ x, name x ≠ "")
    (h : SameText format key (.ofText (a.map name)) (.ofText (b.map name))) : a = b := by
  have htext := h.ofText
  cases a with
  | none =>
    cases b with
    | none => rfl
    | some y => exact absurd htext.symm (hne y)
  | some x =>
    cases b with
    | none => exact absurd htext (hne x)
    | some y => rw [hinj x y htext]

theorem SameText.integer {a b : Int} (h : SameText format key (.integer a) (.integer b)) :
    a = b := by
  obtain ⟨text, ha, hb⟩ := h
  exact intText_inj ((Except.ok.inj ha).trans (Except.ok.inj hb).symm)

theorem SameText.ofInteger {a b : Option Int}
    (h : SameText format key (.ofInteger a) (.ofInteger b)) : a = b := by
  obtain ⟨text, ha, hb⟩ := h
  cases a with
  | none =>
    cases b with
    | none => rfl
    | some n =>
      rw [absent_text ha] at hb
      exact absurd (Except.ok.inj hb) (intText_ne_empty n)
  | some m =>
    cases b with
    | none =>
      rw [absent_text hb] at ha
      exact absurd (Except.ok.inj ha) (intText_ne_empty m)
    | some n => rw [SameText.integer ⟨text, ha, hb⟩]

/-- what the texts of `f64` are relied on for: a number is its bit pattern, and the empty text is not
a number -/
class LawfulF64 (F : Type) [F64 F] : Prop where
  eq_of_sameBits : ∀ a b : F, F64.sameBits a b = true → a = b
  parse_empty : F64.parse (F := F) "" = none

instance : LawfulF64 ℚ where
  eq_of_sameBits a b h := by
    by_contra hne
    have hdist : F64.bitDistance a b = 256 := if_neg hne
    rw [F64.sameBits, hdist] at h
    exact absurd h (by decide)
  parse_empty := by decide

/-- every number of the option reads back as itself from its fixed decimal -/
def ReadsBack (digits : Nat) (value : Option F) : Prop :=
  ∀ v, value = some v → F64.parse (F64.fixed v digits) = some v

theorem readsBack_of_valid [LawfulF64 F] {value : Option F} {digits : Nat} {field : String}
    (h : validateFixedDecimalOpt value digits field = .ok ()) : ReadsBack digits value := by
  rintro v rfl
  simp only [validateFixedDecimalOpt, validateFixedDecimalRoundTrip, formatFixedDecimal, bind_ok,
    exists_unit, reject_ok, need_ok, pure_ok, Bool.not_eq_false] at h
  obtain ⟨-, -, formatted, ⟨-, -, rfl⟩, roundTrip, hparse, hbits⟩ := h
  rw [hparse, LawfulF64.eq_of_sameBits _ _ hbits]

theorem SameText.ofNumber [LawfulF64 F] {digits : Nat} {a b : Option F}
    (hkey : (if key = "lots" then format.volumeDigits else format.priceDigits) = digits)
    (hreads : ReadsBack digits a) (hreads' : ReadsBack digits b)
    (h : SameText format key (.ofNumber a) (.ofNumber b)) : a = b := by
  have hvalue : ∀ (v : F) (text : String),
      signingFieldValue format key (.number v) = .ok text → F64.fixed v digits = text := by
    intro v text hv
    simp only [signingFieldValue, hkey, formatFixedDecimal, bind_ok, exists_unit, pure_ok] at hv
    exact hv.2.2
  obtain ⟨text, ha, hb⟩ := h
  cases a with
  | none =>
    cases b with
    | none => rfl
    | some w =>
      have hparse := hreads' w rfl
      rw [hvalue w text hb, absent_text ha, LawfulF64.parse_empty] at hparse
      cases hparse
  | some v =>
    have hparse := hreads v rfl
    rw [hvalue v text ha] at hparse
    cases b with
    | none =>
      rw [absent_text hb, LawfulF64.parse_empty] at hparse
      cases hparse
    | some w =>
      have hparse' := hreads' w rfl
      rw [hvalue w text hb, hparse] at hparse'
      exact hparse'

end

/-! ## the whole command -/

/-- the two commands agree in everything that is signed: every field but the MAC, with an absent
text read as the empty one -/
structure SameSigned {F : Type} (c c' : ExecutionCommand F) : Prop where
  commandId : c.commandId = c'.commandId
  planId : c.planId.getD "" = c'.planId.getD ""
  legId : c.legId.getD "" = c'.legId.getD ""
  strategyId : c.strategyId = c'.strategyId
  accountId : c.accountId = c'.accountId
  terminalId : c.terminalId.getD "" = c'.terminalId.getD ""
  clientId : c.clientId.getD "" = c'.clientId.getD ""
  symbol : c.symbol = c'.symbol
  brokerSymbol : c.brokerSymbol.getD "" = c'.brokerSymbol.getD ""
  action : c.action = c'.action
  orderType : c.orderType = c'.orderType
  lots : c.lots = c'.lots
  price : c.price = c'.price
  sl : c.sl = c'.sl
  tp : c.tp = c'.tp
  deviationPoints : c.deviationPoints = c'.deviationPoints
  magic : c.magic = c'.magic
  comment : c.comment.getD "" = c'.comment.getD ""
  positionTicket : c.positionTicket.getD "" = c'.positionTicket.getD ""
  brokerOrderId : c.brokerOrderId.getD "" = c'.brokerOrderId.getD ""
  fillingPolicy : c.fillingPolicy = c'.fillingPolicy
  timePolicy : c.timePolicy = c'.timePolicy
  expirationTime : c.expirationTime = c'.expirationTime
  expiresAt : c.expiresAt = c'.expiresAt
  idempotencyKey : c.idempotencyKey = c'.idempotencyKey

theorem signingFields_keys {F : Type} (c c' : ExecutionCommand F) :
    (signingFields c).map Prod.fst = (signingFields c').map Prod.fst := rfl

theorem signingFields_no_separator {F : Type} (c : ExecutionCommand F) :
    ∀ f ∈ signingFields c, '&' ∉ f.1.toList := by
  have hkeys : ∀ key ∈ (signingFields c).map Prod.fst, '&' ∉ key.toList := by
    simp only [signingFields, List.map_cons, List.map_nil]
    decide
  exact fun f hf => hkeys f.1 (List.mem_map_of_mem hf)

section
variable {F : Type} [F64 F] {format : CommandSigningFormat F} {c c' : ExecutionCommand F}

theorem signingString_texts {text : String}
    (h : buildExecutionCommandSigningString c format = .ok text)
    (h' : buildExecutionCommandSigningString c' format = .ok text) :
    List.Forall₂ (fun f f' => SameText format f.1 f.2 f'.2) (signingFields c)
      (signingFields c') := by
  simp only [buildExecutionCommandSigningString, bind_ok, exists_unit, pure_ok] at h h'
  obtain ⟨-, parts, hparts, hjoin⟩ := h
  obtain ⟨-, parts', hparts', rfl⟩ := h'
  have hne : ∀ {d : ExecutionCommand F} {ps : List String},
      signingParts format (signingFields d) = .ok ps → ps ≠ [] := by
    intro d ps hps hnil
    rw [hnil] at hps
    simp only [signingFields, signingParts, bind_ok, pure_ok] at hps
    obtain ⟨_, _, _, _, hcons⟩ := hps
    exact List.cons_ne_nil _ _ hcons
  have hsame := intercalate_inj (signingParts_no_separator (signingFields_no_separator c) hparts)
    (signingParts_no_separator (signingFields_no_separator c') hparts') (hne hparts) (hne hparts')
    hjoin
  rw [← hsame] at hparts'
  exact signingParts_texts (signingFields_keys c c') hparts hparts'

theorem numbers_read_back [LawfulF64 F] {text : String}
    (h : buildExecutionCommandSigningString c format = .ok text) :
    ReadsBack format.volumeDigits c.lots ∧ ReadsBack format.priceDigits c.price ∧
      ReadsBack format.priceDigits c.sl ∧ ReadsBack format.priceDigits c.tp := by
  simp only [buildExecutionCommandSigningString, validateExecutionCommand,
    validateFixedDecimalFields, bind_ok, exists_unit] at h
  obtain ⟨⟨-, -, -, -, -, hlots, hprice, hsl, htp⟩, -⟩ := h
  exact ⟨readsBack_of_valid hlots, readsBack_of_valid hprice, readsBack_of_valid hsl,
    readsBack_of_valid htp⟩

/-- **The signing string binds the command**: whatever texts the commands carry, equal strings come
from commands that agree in every field but the MAC. -/
theorem signing_string_binds [LawfulF64 F] (format : CommandSigningFormat F)
    (c c' : ExecutionCommand F) (text : String)
    (h : buildExecutionCommandSigningString c format = .ok text)
    (h' : buildExecutionCommandSigningString c' format = .ok text) : SameSigned c c' := by
  have htexts := signingString_texts h h'
  obtain ⟨hlots, hprice, hsl, htp⟩ := numbers_read_back h
  obtain ⟨hlots', hprice', hsl', htp'⟩ := numbers_read_back h'
  simp only [signingFields, List.forall₂_cons] at htexts
  obtain ⟨tCommandId, tPlanId, tLegId, tStrategyId, tAccountId, tTerminalId, tClientId, tSymbol,
    tBrokerSymbol, tAction, tOrderType, tLots, tPrice, tSl, tTp, tDeviationPoints, tMagic, tComment,
    tPositionTicket, tBrokerOrderId, tFillingPolicy, tTimePolicy, tExpirationTime, tExpiresAt,
    tIdempotencyKey, -⟩ := htexts
  exact {
    commandId := tCommandId.text
    planId := tPlanId.ofText
    legId := tLegId.ofText
    strategyId := tStrategyId.text
    accountId := tAccountId.text
    terminalId := tTerminalId.ofText
    clientId := tClientId.ofText
    symbol := tSymbol.text
    brokerSymbol := tBrokerSymbol.ofText
    action := ExecutionAction.asStr_inj tAction.text
    orderType := tOrderType.ofName (fun _ _ => OrderType.asStr_inj) OrderType.asStr_ne_empty
    lots := tLots.ofNumber (if_pos rfl) hlots hlots'
    price := tPrice.ofNumber (if_neg (by decide)) hprice hprice'
    sl := tSl.ofNumber (if_neg (by decide)) hsl hsl'
    tp := tTp.ofNumber (if_neg (by decide)) htp htp'
    deviationPoints := tDeviationPoints.ofInteger
    magic := tMagic.integer
    comment := tComment.ofText
    positionTicket := tPositionTicket.ofText
    brokerOrderId := tBrokerOrderId.ofText
    fillingPolicy :=
      tFillingPolicy.ofName (fun _ _ => FillingPolicy.asStr_inj) FillingPolicy.asStr_ne_empty
    timePolicy := tTimePolicy.ofName (fun _ _ => TimePolicy.asStr_inj) TimePolicy.asStr_ne_empty
    expirationTime := tExpirationTime.ofInteger
    expiresAt := tExpiresAt.integer
    idempotencyKey := tIdempotencyKey.text }

end

/-- a command whose texts are full of separators -/
def separatorCommand (comment : Option String) (hmac : String) : ExecutionCommand ℚ where
  commandId := "a&plan_id=b"
  planId := none
  legId := some "%26"
  strategyId := "s"
  accountId := "é"
  terminalId := none
  clientId := none
  symbol := "XAU=USD"
  brokerSymbol := none
  action := .buy
  orderType := some .market
  lots := some (3 / 2)
  price := none
  sl := some (-1)
  tp := none
  deviationPoints := some (-3)
  magic := 7
  comment := comment
  positionTicket := none
  brokerOrderId := none
  fillingPolicy := some .ioc
  timePolicy := none
  expirationTime := none
  expiresAt := 1000
  idempotencyKey := "key"
  hmac := hmac

def separatorText : String :=
  "command_id=a%26plan_id%3Db&plan_id=&leg_id=%2526&strategy_id=s&account_id=%C3%A9&terminal_id=" ++
  "&client_id=&symbol=XAU%3DUSD&broker_symbol=&action=BUY&order_type=MARKET&lots=1.50&price=" ++
  "&sl=-1.0&tp=&deviation_points=-3&magic=7&comment=&position_ticket=&broker_order_id=" ++
  "&filling_policy=IOC&time_policy=&expiration_time=&expires_at=1000&idempotency_key=key"

theorem separator_command_bound :
    SameSigned (separatorCommand none "one") (separatorCommand (some "") "two") :=
  signing_string_binds ⟨1, 2, none⟩ _ _ separatorText (by decide +kernel) (by decide +kernel)

end Sinan.Protocol
