import Sinan.Lib.JsonText
import Sinan.Store.Graph

/-!
# Canonical JSON

What the store writes of a payload is its compact text with the keys of every object sorted, and the
digest of that text.  Two payloads have one text exactly when they are equal up to the order of their
entries, and a text that was written is accepted when it is read back.
-/

namespace Sinan.Store

open Lib Json

variable {N : Type}

/-! ## sorting -/

/-- `Map::insert`: the entry of the key is replaced in its place, or a new one comes last -/
def insertEntry (entries : List (String × Json N)) (key : String) (value : Json N) :
    List (String × Json N) :=
  if entries.any fun e => e.1 == key then
    entries.map fun e => if e.1 == key then (key, value) else e
  else entries ++ [(key, value)]

/-- The entries are sorted before their values are. -/
def sortObjectKeys : Json N → Json N
  | .array values => .array (values.map sortObjectKeys)
  | .object entries =>
    .object ((sortBy Prod.fst entries).attach.foldl
      (fun sorted e => insertEntry sorted e.1.1 (sortObjectKeys e.1.2)) [])
  | .null => .null
  | .bool b => .bool b
  | .number n => .number n
  | .string s => .string s
  termination_by v => sizeOf v
  decreasing_by
  · exact sizeOf_item ‹_›
  · exact sizeOf_entry (mem_sortBy.mp e.2)

structure CanonicalJson where
  text : String
  sha256Hex : String
  deriving DecidableEq

/-- What the store relies on of `serde_json`: a value whose entries stand in the order of their keys
is read back from its text.  Printing a value does not fail. -/
structure SerdeJson (N : Type) where
  print : Json N → String
  parse : String → Except String (Json N)
  parse_print : ∀ v : Json N, v.Ordered → parse (print v) = .ok v

section
variable (serde : SerdeJson N) (sha256Hex : String → String)

def CanonicalJson.fromValue (value : Json N) : CanonicalJson :=
  let text := serde.print (sortObjectKeys value)
  { text, sha256Hex := sha256Hex text }

def CanonicalJson.parse (text : String) : Except String CanonicalJson := do
  let value ← serde.parse text
  return CanonicalJson.fromValue serde sha256Hex value

def CanonicalJson.fromStored (entity key text storedHash : String) : StoreCheck CanonicalJson := do
  let corrupt := StoreError.corruptData entity key
  let canonical ← (CanonicalJson.parse serde sha256Hex text).mapError fun error =>
    corrupt ("invalid payload_json: " ++ error)
  reject (canonical.text ≠ text) (corrupt "payload_json is not in canonical form")
  reject (canonical.sha256Hex ≠ storedHash) (corrupt "payload_hash does not match payload_json")
  return canonical

end

/-! ## what sorting does -/

variable {entries : List (String × Json N)}

theorem keys_insertEntry_fresh {key : String} {value : Json N} (h : key ∉ keys entries) :
    insertEntry entries key value = entries ++ [(key, value)] := by
  refine if_neg fun hany => ?_
  obtain ⟨e, he, hkey⟩ := List.any_eq_true.mp hany
  exact h (List.mem_map.mpr ⟨e, he, beq_iff_eq.mp hkey⟩)

theorem insertEntries_fresh {f : Json N → Json N} {sorted : List (String × Json N)}
    (h : (keys (sorted ++ entries)).Nodup) :
    entries.foldl (fun sorted e => insertEntry sorted e.1 (f e.2)) sorted =
      sorted ++ entries.map (Prod.map id f) := by
  induction entries generalizing sorted with
  | nil => exact (List.append_nil sorted).symm
  | cons e entries ih =>
    have hkeys : keys (sorted ++ [(e.1, f e.2)] ++ entries) = keys (sorted ++ e :: entries) := by
      simp only [keys, List.map_append, List.map_cons, List.append_assoc,
        List.singleton_append]
    have hfresh : e.1 ∉ keys sorted := by
      intro hmem
      rw [keys, List.map_append] at h
      exact (List.nodup_append.mp h).2.2 _ hmem _ (List.mem_cons_self) rfl
    rw [List.foldl_cons, keys_insertEntry_fresh hfresh, ih (hkeys ▸ h), List.append_assoc]
    rfl

theorem sortObjectKeys_array (values : List (Json N)) :
    sortObjectKeys (.array values) = .array (values.map sortObjectKeys) := by
  rw [sortObjectKeys]

theorem sortObjectKeys_object (h : (keys entries).Nodup) :
    sortObjectKeys (.object entries) =
      .object ((sortBy Prod.fst entries).map (Prod.map id sortObjectKeys)) := by
  rw [sortObjectKeys]
  rw [List.foldl_attach (f := fun sorted (e : String × Json N) =>
    insertEntry sorted e.1 (sortObjectKeys e.2)), insertEntries_fresh]
  · rfl
  · exact ((sortBy_perm Prod.fst entries).map Prod.fst).nodup_iff.mpr h

/-! ## the normal form -/

variable {v : Json N}

theorem map_sortEntries (f : Json N → Json N) (entries : List (String × Json N)) :
    (sortBy Prod.fst entries).map (Prod.map id f) = sortBy Prod.fst (entries.map (Prod.map id f)) := by
  have hkey : ∀ e : String × Json N, (Prod.map id f e).1 = e.1 := fun _ => rfl
  exact sortBy_map hkey entries

theorem sortEntries_eq {es fs : List (String × Json N)} (h : keys es = keys fs)
    (hparts : ∀ e f, (e, f) ∈ es.zip fs → sortObjectKeys e.2 = sortObjectKeys f.2) :
    es.map (Prod.map id sortObjectKeys) = fs.map (Prod.map id sortObjectKeys) := by
  obtain ⟨hlength, hkeys⟩ := map_eq_map_iff_zip.mp h
  exact map_eq_map_iff_zip.mpr ⟨hlength, fun e f hmem =>
    Prod.ext (hkeys e f hmem) (hparts e f hmem)⟩

theorem sortObjectKeys_same {w : Json N} (h : Same v w) (hv : v.Distinct) (hw : w.Distinct) :
    sortObjectKeys v = sortObjectKeys w := by
  induction h with
  | null => rfl
  | bool b => rfl
  | number n => rfl
  | string s => rfl
  | array length parts ih =>
    have hxs := distinct_array.mp hv
    have hys := distinct_array.mp hw
    rw [sortObjectKeys_array, sortObjectKeys_array]
    refine congrArg Json.array (map_eq_map_iff_zip.mpr ⟨length, fun x y hmem => ?_⟩)
    exact ih x y hmem (hxs x (List.of_mem_zip hmem).1) (hys y (List.of_mem_zip hmem).2)
  | @object es fs es' fs' left right names parts ih =>
    obtain ⟨hes, hvalues⟩ := distinct_object.mp hv
    obtain ⟨hfs, hvalues'⟩ := distinct_object.mp hw
    have hleft : sortBy Prod.fst es = sortBy Prod.fst es' := sortBy_congr left.symm hes
    have hright : sortBy Prod.fst fs = sortBy Prod.fst fs' := sortBy_congr right.symm hfs
    have hsorted : es'.map (Prod.map id sortObjectKeys) = fs'.map (Prod.map id sortObjectKeys) := by
      apply sortEntries_eq names
      intro e f hmem
      have he : e ∈ es := left.mem_iff.mp (List.of_mem_zip hmem).1
      have hf : f ∈ fs := right.mem_iff.mp (List.of_mem_zip hmem).2
      exact ih e f hmem (hvalues e he) (hvalues' f hf)
    rw [sortObjectKeys_object hes, sortObjectKeys_object hfs, hleft, hright,
      map_sortEntries, map_sortEntries, hsorted]

theorem eq_of_sortObjectKeys_leaf {leaf : Json N} (harray : ∀ items, Json.array items ≠ leaf)
    (hobject : ∀ entries, Json.object entries ≠ leaf) (h : sortObjectKeys v = leaf) : v = leaf := by
  cases v with
  | array items =>
    rw [sortObjectKeys] at h
    exact absurd h (harray _)
  | object entries =>
    rw [sortObjectKeys] at h
    exact absurd h (hobject _)
  | _ =>
    rw [sortObjectKeys] at h
    exact h

theorem same_of_sortObjectKeys {w : Json N} (hv : v.Distinct) (hw : w.Distinct)
    (h : sortObjectKeys v = sortObjectKeys w) : Same v w := by
  induction v generalizing w with
  | array xs ih =>
    cases hw with
    | @array ys hys =>
      have hxs := distinct_array.mp hv
      rw [sortObjectKeys_array, sortObjectKeys_array] at h
      obtain ⟨hlength, hparts⟩ := map_eq_map_iff_zip.mp (Json.array.inj h)
      refine .array hlength fun x y hmem => ?_
      have hx : x ∈ xs := (List.of_mem_zip hmem).1
      exact ih x hx (hxs x hx) (hys y (List.of_mem_zip hmem).2) (hparts x y hmem)
    | object hfs _ =>
      rw [sortObjectKeys_array, sortObjectKeys_object hfs] at h
      cases h
    | _ => rw [sortObjectKeys, sortObjectKeys] at h; cases h
  | object es ih =>
    obtain ⟨hes, hvalues⟩ := distinct_object.mp hv
    cases hw with
    | @object fs hfs hvalues' =>
      rw [sortObjectKeys_object hes, sortObjectKeys_object hfs] at h
      obtain ⟨hlength, hparts⟩ := map_eq_map_iff_zip.mp (Json.object.inj h)
      have hentry := fun e f hmem => Prod.mk.inj (hparts e f hmem)
      refine .object (sortBy_perm Prod.fst es) (sortBy_perm Prod.fst fs)
        (map_eq_map_iff_zip.mpr ⟨hlength, fun e f hmem => (hentry e f hmem).1⟩) fun e f hmem => ?_
      have he : e ∈ es := mem_sortBy.mp (List.of_mem_zip hmem).1
      have hf : f ∈ fs := mem_sortBy.mp (List.of_mem_zip hmem).2
      exact ih e he (hvalues e he) (hvalues' f hf) (hentry e f hmem).2
    | _ => rw [sortObjectKeys_object hes, sortObjectKeys] at h; cases h
  | null =>
    rw [sortObjectKeys] at h
    have hleaf : w = .null := eq_of_sortObjectKeys_leaf nofun nofun h.symm
    rw [hleaf]
    exact .null
  | bool b =>
    rw [sortObjectKeys] at h
    have hleaf : w = .bool b := eq_of_sortObjectKeys_leaf nofun nofun h.symm
    rw [hleaf]
    exact .bool b
  | number n =>
    rw [sortObjectKeys] at h
    have hleaf : w = .number n := eq_of_sortObjectKeys_leaf nofun nofun h.symm
    rw [hleaf]
    exact .number n
  | string s =>
    rw [sortObjectKeys] at h
    have hleaf : w = .string s := eq_of_sortObjectKeys_leaf nofun nofun h.symm
    rw [hleaf]
    exact .string s

theorem sortObjectKeys_ordered (h : v.Distinct) : (sortObjectKeys v).Ordered := by
  induction h with
  | @array items _ ih =>
    rw [sortObjectKeys_array]
    refine .array fun x hx => ?_
    obtain ⟨y, hy, rfl⟩ := List.mem_map.mp hx
    exact ih y hy
  | @object entries hnodup _ ih =>
    rw [sortObjectKeys_object hnodup]
    refine .object ?_ fun e he => ?_
    · rw [keys, List.map_map]
      exact sortBy_strict hnodup
    · obtain ⟨d, hd, rfl⟩ := List.mem_map.mp he
      exact ih d (mem_sortBy.mp hd)
  | null =>
    rw [sortObjectKeys]
    exact .null
  | bool b =>
    rw [sortObjectKeys]
    exact .bool b
  | number n =>
    rw [sortObjectKeys]
    exact .number n
  | string s =>
    rw [sortObjectKeys]
    exact .string s

theorem sortObjectKeys_of_ordered (h : v.Ordered) : sortObjectKeys v = v := by
  induction h with
  | array _ ih =>
    rw [sortObjectKeys_array]
    exact congrArg Json.array (List.map_congr_left ih |>.trans (List.map_id _))
  | @object entries grow _ ih =>
    have hsorted : sortBy Prod.fst entries = entries :=
      ((List.pairwise_map.mp grow).imp fun hlt => le_of_lt hlt).insertionSort_eq
    rw [sortObjectKeys_object (grow.imp fun hlt => ne_of_lt hlt), hsorted]
    have hparts : ∀ e ∈ entries, Prod.map id sortObjectKeys e = id e :=
      fun e he => Prod.ext rfl (ih e he)
    exact congrArg Json.object ((List.map_congr_left hparts).trans (List.map_id _))
  | _ => rw [sortObjectKeys]

/-! ## texts -/

section
variable {serde : SerdeJson N} {sha256Hex : String → String}

theorem print_inj {v w : Json N} (hv : v.Ordered) (hw : w.Ordered)
    (h : serde.print v = serde.print w) : v = w := by
  have hparse := serde.parse_print v hv
  rw [h, serde.parse_print w hw] at hparse
  exact (Except.ok.inj hparse).symm

theorem fromValue_text_iff {v w : Json N} (hv : v.Distinct) (hw : w.Distinct) :
    (CanonicalJson.fromValue serde sha256Hex v).text =
      (CanonicalJson.fromValue serde sha256Hex w).text ↔ Same v w := by
  constructor
  · intro h
    exact same_of_sortObjectKeys hv hw
      (print_inj (sortObjectKeys_ordered hv) (sortObjectKeys_ordered hw) h)
  · intro h
    exact congrArg serde.print (sortObjectKeys_same h hv hw)

theorem parse_fromValue {v : Json N} (hv : v.Distinct) :
    CanonicalJson.parse serde sha256Hex (CanonicalJson.fromValue serde sha256Hex v).text =
      .ok (CanonicalJson.fromValue serde sha256Hex v) := by
  have hordered := sortObjectKeys_ordered hv
  have hread : serde.parse (CanonicalJson.fromValue serde sha256Hex v).text =
      .ok (sortObjectKeys v) := serde.parse_print _ hordered
  rw [CanonicalJson.parse, hread]
  show Except.ok (CanonicalJson.fromValue serde sha256Hex (sortObjectKeys v)) = _
  unfold CanonicalJson.fromValue
  rw [sortObjectKeys_of_ordered hordered]

theorem fromStored_ok {entity key text storedHash : String} {c : CanonicalJson} :
    CanonicalJson.fromStored serde sha256Hex entity key text storedHash = .ok c ↔
      CanonicalJson.parse serde sha256Hex text = .ok c ∧ c.text = text ∧
        c.sha256Hex = storedHash := by
  simp only [CanonicalJson.fromStored, bind_ok, mapError_ok, reject_ok, pure_ok, not_not]
  constructor
  · rintro ⟨d, hparse, -, htext, -, hhash, rfl⟩
    exact ⟨hparse, htext, hhash⟩
  · rintro ⟨hparse, htext, hhash⟩
    exact ⟨c, hparse, (), htext, (), hhash, rfl⟩

/-- Texts are equal exactly for values that are equal up to the order of entries; the text of a value
is the text of what is parsed from it; and a stored text and its digest are accepted. -/
theorem canonical_json_normal_form (serde : SerdeJson N) (sha256Hex : String → String) :
    (∀ v w : Json N, v.Distinct → w.Distinct →
      ((CanonicalJson.fromValue serde sha256Hex v).text =
        (CanonicalJson.fromValue serde sha256Hex w).text ↔ Same v w)) ∧
    ∀ v : Json N, v.Distinct →
      CanonicalJson.parse serde sha256Hex (CanonicalJson.fromValue serde sha256Hex v).text =
        .ok (CanonicalJson.fromValue serde sha256Hex v) ∧
      ∀ entity key, CanonicalJson.fromStored serde sha256Hex entity key
        (CanonicalJson.fromValue serde sha256Hex v).text
        (CanonicalJson.fromValue serde sha256Hex v).sha256Hex =
          .ok (CanonicalJson.fromValue serde sha256Hex v) := by
  refine ⟨fun v w hv hw => fromValue_text_iff hv hw, fun v hv => ⟨parse_fromValue hv, ?_⟩⟩
  intro entity key
  exact fromStored_ok.mpr ⟨parse_fromValue hv, rfl, rfl⟩

end

/-! ## samples -/

/-- values whose numbers are integers, written and read compactly -/
def goldSerde : SerdeJson Int where
  print v := String.ofList (text intText.write v)
  parse s := need (ofText intText.read s.toList) "expected value"
  parse_print v _ := by
    rw [String.toList_ofList, ofText_text]
    rfl

def goldUnsorted : Json Int :=
  .object [("z", .array [.object [("b", .number 2), ("a", .number 1)]]),
    ("a", .object [("d", .number 4), ("c", .number 3)])]

def goldSorted : Json Int :=
  .object [("a", .object [("c", .number 3), ("d", .number 4)]),
    ("z", .array [.object [("a", .number 1), ("b", .number 2)]])]

theorem goldUnsorted_distinct : goldUnsorted.Distinct := by
  simp [goldUnsorted, keys, Distinct.number]

theorem goldSorted_distinct : goldSorted.Distinct := by
  simp [goldSorted, keys, Distinct.number]

example : sortObjectKeys goldUnsorted = goldSorted := by
  have hleaf : ∀ n : Int, sortObjectKeys (.number n) = .number n := fun n => by rw [sortObjectKeys]
  simp [goldUnsorted, goldSorted, sortObjectKeys_object, sortObjectKeys_array, hleaf, keys, sortBy]

/-- A digest is any function of the text; here its length. -/
theorem canonical_json_normal_form_sorted :
    ((CanonicalJson.fromValue goldSerde (fun t => toString t.length) goldUnsorted).text =
        (CanonicalJson.fromValue goldSerde (fun t => toString t.length) goldSorted).text ↔
      Same goldUnsorted goldSorted) ∧
    CanonicalJson.fromStored goldSerde (fun t => toString t.length) "trade_intent" "intent-1"
      (CanonicalJson.fromValue goldSerde (fun t => toString t.length) goldUnsorted).text
      (CanonicalJson.fromValue goldSerde (fun t => toString t.length) goldUnsorted).sha256Hex =
        .ok (CanonicalJson.fromValue goldSerde (fun t => toString t.length) goldUnsorted) :=
  have h := canonical_json_normal_form goldSerde fun t => toString t.length
  ⟨h.1 goldUnsorted goldSorted goldUnsorted_distinct goldSorted_distinct,
    (h.2 goldUnsorted goldUnsorted_distinct).2 "trade_intent" "intent-1"⟩

end Sinan.Store
