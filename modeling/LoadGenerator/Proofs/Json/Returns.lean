import LoadGenerator.Proofs.Json.Faithful
import LoadGenerator.Proofs.Json.Records

/-!
# What codecs give back

What a codec writes is read in two ways: straight from the text, and from the value that the text stands for. Both give the same back. For a record this follows from its members, since what each of them does to the record that is read does not depend on the order in which they come.
-/

namespace LoadGenerator

open JsonReader

/-! ## Returning -/

/-- What the codec writes for one value is read as the other, from its text and from the value that the text stands for. -/
structure JsonCodec.Returns {α : Type} (codec : JsonCodec α) (depth : Nat) (a b : α) : Prop where
  writable : (codec.encode a).IsWritable
  shallow : (codec.encode a).depth ≤ depth
  reads : Reads (codec.read depth) (codec.encode a).render b
  decodes : codec.decode (codec.encode a).reread = .ok b

theorem JsonCodec.Returns.ofJson {α : Type} {codec : JsonCodec α} {depth : Nat} {a b : α} (h : codec.Returns depth a b) :
    codec.ofJson (codec.encode a).reread = .ok b := by
  rw [JsonCodec.ofJson, h.decodes]
  rfl

theorem Json.eq_null_of_isNull {v : Json} (h : v.isNull = true) : v = .null := by
  cases v <;> first | rfl | cases h

/-- A value other than null does not begin like it. -/
theorem Json.render_ne_null {v : Json} (hwritable : v.IsWritable) (hnull : v ≠ .null) :
    ∃ c cs, v.render = c :: cs ∧ isJsonBlank c = false ∧ c ≠ 'n' := by
  cases v with
  | null => exact absurd rfl hnull
  | bool b => cases b <;> exact ⟨_, _, rfl, rfl, by decide⟩
  | number n =>
    obtain ⟨c, cs, hcons, hc⟩ := render_number hwritable
    obtain ⟨c', cs', hcons', hblank, -⟩ := startsValue_render hwritable
    obtain ⟨rfl, -⟩ := List.cons.inj (hcons.symm.trans hcons')
    refine ⟨c, cs, hcons, hblank, ?_⟩
    rintro rfl
    cases hc
  | string s => exact ⟨_, _, rfl, rfl, by decide⟩
  | array items => exact ⟨_, _, rfl, rfl, by decide⟩
  | object members => exact ⟨_, _, rfl, rfl, by decide⟩

namespace JsonCodec

variable {α : Type} {d : Nat}

theorem returns_string (s : String) (d : Nat) : string.Returns d s s where
  writable := trivial
  shallow := Nat.zero_le d
  reads := reads_string s d
  decodes := rfl

theorem returns_bool (b : Bool) (d : Nat) : bool.Returns d b b where
  writable := trivial
  shallow := Nat.zero_le d
  reads := by cases b <;> exact reads_expecting ⟨_, _, rfl, rfl, rfl⟩ fun _ _ => rfl
  decodes := rfl

theorem returns_number {expected : String} {take : JsonNumber → Except JsonProblem α} {give : α → Json} {a b : α} {n : JsonNumber}
    (hwritable : n.IsWritable) (hgive : give a = .number n) (htake : take n.reread = .ok b) (d : Nat) :
    (ofNumber expected take give).Returns d a b where
  writable := by
    rw [show (ofNumber expected take give).encode a = .number n from hgive]
    exact hwritable
  shallow := by
    rw [show (ofNumber expected take give).encode a = .number n from hgive]
    exact Nat.zero_le d
  reads := by
    obtain ⟨c, cs, hcons, hc⟩ := render_number hwritable
    obtain ⟨c', cs', hcons', hblank, -⟩ := startsValue_render (v := .number n) hwritable
    obtain ⟨rfl, -⟩ := List.cons.inj (hcons.symm.trans hcons')
    rw [show (ofNumber expected take give).encode a = .number n from hgive]
    refine reads_expecting ⟨c, cs, hcons, hblank, hc⟩ fun rest hrest => ?_
    rw [Json.render, bind_of_ok (number_rendered hwritable rest hrest), htake]
    rfl
  decodes := by
    rw [show (ofNumber expected take give).encode a = .number n from hgive]
    exact htake

theorem int32_decode (n : Int32) : int32.decode (.number (.ofInt32 n)) = .ok n := by
  have hlow := n.minValue_le_toInt
  have hhigh := n.toInt_le
  have hinteger : integerWithin "i32" Int32.minValue.toInt Int32.maxValue.toInt (.ofInt32 n) = .ok n.toInt := by
    rw [integerWithin, JsonNumber.ofInt32, JsonNumber.toInt?_ofInt64, Int32.toInt_toInt64]
    dsimp only
    rw [if_pos ⟨hlow, hhigh⟩]
  change Int32.ofInt <$> integerWithin "i32" Int32.minValue.toInt Int32.maxValue.toInt (.ofInt32 n) = _
  rw [hinteger]
  exact congrArg Except.ok (Int32.ofInt_toInt n)

theorem int64_decode (n : Int64) : int64.decode (.number (.ofInt64 n)) = .ok n := by
  have hlow := n.minValue_le_toInt
  have hhigh := n.toInt_le
  have hinteger : integerWithin "i64" Int64.minValue.toInt Int64.maxValue.toInt (.ofInt64 n) = .ok n.toInt := by
    rw [integerWithin, JsonNumber.toInt?_ofInt64]
    dsimp only
    rw [if_pos ⟨hlow, hhigh⟩]
  change Int64.ofInt <$> integerWithin "i64" Int64.minValue.toInt Int64.maxValue.toInt (.ofInt64 n) = _
  rw [hinteger]
  exact congrArg Except.ok (Int64.ofInt_toInt n)

theorem returns_int32 (n : Int32) (d : Nat) : int32.Returns d n n := by
  refine returns_number (Json.isWritable_of_isIntegral (JsonNumber.isIntegral_ofInt32 n)) ?_ ?_ d
  · rfl
  · rw [JsonNumber.reread_ofInt32]
    exact int32_decode n

theorem returns_int64 (n : Int64) (d : Nat) : int64.Returns d n n := by
  refine returns_number (Json.isWritable_of_isIntegral (JsonNumber.isIntegral_ofInt64 n)) ?_ ?_ d
  · rfl
  · rw [JsonNumber.reread_ofInt64]
    exact int64_decode n

theorem returns_real {x : Binary64} (h : x.isFinite = true) (d : Nat) : real.Returns d x x.reread := by
  refine returns_number (n := .real x) h ?_ ?_ d
  · exact if_pos h
  · rw [reread_real h]
    rfl

theorem returns_json {v : Json} (hwritable : v.IsWritable) (hdepth : v.depth ≤ d) : json.Returns d v v.reread where
  writable := hwritable
  shallow := hdepth
  reads := reads_json hwritable hdepth
  decodes := rfl

theorem returns_none (inner : JsonCodec α) (d : Nat) : inner.option.Returns d none none where
  writable := trivial
  shallow := Nat.zero_le d
  reads := reads_none inner d
  decodes := rfl

theorem returns_some {inner : JsonCodec α} {a b : α} (h : inner.Returns d a b) (hnull : inner.encode a ≠ .null) :
    inner.option.Returns d (some a) (some b) where
  writable := h.writable
  shallow := h.shallow
  reads := reads_some (Json.render_ne_null h.writable hnull) h.reads
  decodes := by
    have hdecode := h.decodes
    change inner.option.decode (inner.encode a).reread = _
    cases hvalue : inner.encode a with
    | null => exact absurd hvalue hnull
    | _ =>
      rw [hvalue] at hdecode
      exact congrArg (some <$> ·) hdecode

/-- A value of null is taken for none. -/
theorem returns_json_option {v : Option Json} (hwritable : ∀ x ∈ v, x.IsWritable) (hdepth : ∀ x ∈ v, x.depth ≤ d) :
    json.option.Returns d v ((v.filter (!·.isNull)).map Json.reread) := by
  cases v with
  | none => exact returns_none json d
  | some v =>
    by_cases hnull : v = .null
    · subst hnull
      exact { returns_none json d with }
    · have hkept : (some v).filter (!·.isNull) = some v := by
        cases v <;> first | rfl | exact absurd rfl hnull
      rw [hkept]
      exact returns_some (returns_json (hwritable v rfl) (hdepth v rfl)) hnull

theorem decodeMembers_string (members : List (String × String)) :
    decodeMembers string (members.map fun member => (member.1, .string member.2)) = .ok members := by
  induction members with
  | nil => rfl
  | cons member members ih =>
    rw [List.map_cons, decodeMembers, ih]
    rfl

/-- Texts under names come back in the order of the names. -/
theorem returns_texts (members : List (String × String)) (d : Nat) : string.map.Returns (d + 1) members (Json.sortMembers members) where
  writable := by
    change Json.MembersWritable (members.map fun member => (member.1, .string member.2))
    rw [Json.membersWritable_iff]
    exact List.forall_mem_map.mpr fun _ _ => trivial
  shallow := by
    refine Nat.succ_le_succ (Nat.le_of_not_lt fun hdeep => ?_)
    obtain ⟨member, hmember, hless⟩ := Json.exists_of_lt_membersDepth hdeep
    obtain ⟨source, -, rfl⟩ := List.mem_map.mp hmember
    exact Nat.not_lt_zero d hless
  reads := reads_map fun member _ => reads_string member.2 d
  decodes := by
    have hvalue : (string.map.encode members).reread = .object ((Json.sortMembers members).map fun member => (member.1, .string member.2)) := by
      change Json.object (Json.sortMembers (Json.rereadMembers (members.map fun member => (member.1, .string member.2)))) = _
      rw [Json.rereadMembers_eq_map, List.map_map, ← Json.sortMembers_map]
      rfl
    rw [hvalue, map]
    dsimp only
    rw [decodeMembers_string]
    exact congrArg Except.ok (Json.sortMembers_of_increasing (Json.increasing_sortMembers members))

end JsonCodec

/-! ## Records -/

variable {α : Type}

/-- What a member that is written, or left out, does to the record that is read. -/
inductive RecordMember.Brings (record : RecordType α) (depth : Nat) (a : α) (member : RecordMember α) (put : α → α) : Prop where
  | omitted (hencode : member.encode a = none) (hpresence : member.presence ≠ .required) (hput : put record.blank = record.blank)
  | written (value : Json) (hencode : member.encode a = some value) (hwritable : value.IsWritable) (hdepth : value.depth ≤ depth)
      (hreads : ∀ r, Reads (member.read depth r) value.render (put r)) (hdecodes : ∀ r, member.decode value.reread r = .ok (put r))

theorem RecordMember.Brings.of_returns {β : Type} {record : RecordType α} {depth : Nat} {a : α} {codec : JsonCodec β} {get : α → β} {b : β}
    (h : codec.Returns depth (get a) b) {name : String} {presence : Presence} {put : β → α → α} {omitted : β → Bool}
    (homitted : omitted (get a) = true → presence ≠ .required ∧ put b record.blank = record.blank) :
    (RecordMember.of name presence codec get put omitted).Brings record depth a (put b) := by
  have hencode : (RecordMember.of name presence codec get put omitted).encode a =
      if omitted (get a) = true then none else some (codec.encode (get a)) := rfl
  cases hcase : omitted (get a) with
  | true =>
    rw [hcase, if_pos rfl] at hencode
    exact .omitted hencode (homitted hcase).1 (homitted hcase).2
  | false =>
    rw [hcase, if_neg Bool.false_ne_true] at hencode
    exact .written _ hencode h.writable h.shallow (fun r => RecordMember.reads_of h.reads r) fun r => RecordMember.decode_of h.decodes r

/-- A member that is always written. -/
theorem RecordMember.Brings.always {β : Type} {record : RecordType α} {depth : Nat} {a : α} {codec : JsonCodec β} {get : α → β} {b : β}
    (h : codec.Returns depth (get a) b) {name : String} {presence : Presence} {put : β → α → α} :
    (RecordMember.of name presence codec get put fun _ => false).Brings record depth a (put b) :=
  of_returns h fun hfalse => by cases hfalse

namespace RecordType

variable {record : RecordType α} {depth : Nat} {a b : α} {pairs : List (RecordMember α × (α → α))}

/-- The entries of the members that are written. -/
def entriesOf (a : α) (pairs : List (RecordMember α × (α → α))) : List (Entry α) :=
  pairs.filterMap fun pair => (pair.1.encode a).map fun value => ⟨pair.1.name, value, pair.2⟩

private theorem exists_of_mem_entriesOf {entry : Entry α} (h : entry ∈ entriesOf a pairs) :
    ∃ pair ∈ pairs, pair.1.encode a = some entry.value ∧ pair.1.name = entry.key ∧ pair.2 = entry.put := by
  obtain ⟨pair, hpair, hentry⟩ := List.mem_filterMap.mp h
  obtain ⟨value, hvalue, rfl⟩ := Option.map_eq_some_iff.mp hentry
  exact ⟨pair, hpair, hvalue, rfl, rfl⟩

private theorem encode_entriesOf (hmembers : pairs.map Prod.fst = record.members) : record.codec.encode a = entriesObject (entriesOf a pairs) := by
  change Json.object (encodeMembers record.members a) = _
  rw [encodeMembers, ← hmembers, List.filterMap_map, entriesObject, entriesOf, List.map_filterMap]
  congr 1
  refine List.filterMap_congr fun pair _ => ?_
  rw [Option.map_map]
  rfl

private theorem keys_sublist (a : α) (pairs : List (RecordMember α × (α → α))) :
    ((entriesOf a pairs).map Entry.key).Sublist (pairs.map fun pair => pair.1.name) := by
  induction pairs with
  | nil => exact .slnil
  | cons pair pairs ih =>
    rw [entriesOf, List.filterMap_cons, List.map_cons]
    cases pair.1.encode a with
    | none => exact ih.cons _
    | some value => exact ih.cons_cons _

theorem member?_of_mem (hnames : (record.members.map (·.name)).Nodup) {member : RecordMember α} (h : member ∈ record.members) :
    record.member? member.name = some member := by
  unfold member?
  generalize record.members = members at h hnames
  induction members with
  | nil => cases h
  | cons first members ih =>
    rw [List.map_cons, List.nodup_cons] at hnames
    obtain rfl | hrest := List.mem_cons.mp h
    · rw [List.find?_cons, beq_self_eq_true]
    · have hne : first.name ≠ member.name := fun heq => hnames.1 (heq ▸ List.mem_map_of_mem hrest)
      rw [List.find?_cons, beq_eq_false_iff_ne.mpr hne]
      exact ih hrest hnames.2

private theorem mem_seenAfter {entries : List (Entry α)} {entry : Entry α} (h : entry ∈ entries) (hknown : (record.member? entry.key).isSome = true)
    (seen : List String) : entry.key ∈ record.seenAfter seen entries := by
  have hkeeps (seen : List String) (entries : List (Entry α)) (hseen : entry.key ∈ seen) : entry.key ∈ record.seenAfter seen entries := by
    induction entries generalizing seen with
    | nil => exact hseen
    | cons next entries ih =>
      rw [seenAfter, List.foldl_cons]
      refine ih _ ?_
      split_ifs
      · exact List.mem_cons_of_mem _ hseen
      · exact hseen
  induction entries generalizing seen with
  | nil => cases h
  | cons next entries ih =>
    rw [seenAfter, List.foldl_cons]
    obtain rfl | hrest := List.mem_cons.mp h
    · rw [if_pos hknown]
      exact hkeeps _ _ (List.mem_cons_self ..)
    · exact ih hrest _

/-- The order of entries does not matter if what they do to the record does not. -/
theorem putAll_perm {entries entries' : List (Entry α)} (hperm : entries.Perm entries')
    (hcommute : ∀ x ∈ entries, ∀ y ∈ entries, ∀ r, x.put (y.put r) = y.put (x.put r)) (r : α) : putAll r entries = putAll r entries' :=
  hperm.foldl_eq' (fun x hx y hy r => hcommute y hy x hx r) r

private theorem foldl_put {put : α → α} (h : ∀ x ∈ pairs, ∀ r, put (x.2 r) = x.2 (put r)) (r : α) :
    put (pairs.foldl (fun r pair => pair.2 r) r) = pairs.foldl (fun r pair => pair.2 r) (put r) := by
  induction pairs generalizing r with
  | nil => rfl
  | cons pair pairs ih =>
    rw [List.foldl_cons, List.foldl_cons, ih fun x hx => h x (List.mem_cons_of_mem _ hx), h pair (List.mem_cons_self ..)]

/-- The entry with the value that is read for its own. -/
def Entry.reread (entry : Entry α) : Entry α := { entry with value := entry.value.reread }

/-- The entries of an object that is read are those that were written, in another order. -/
private theorem exists_reread {entries : List (Entry α)} (hnodup : (entries.map Entry.key).Nodup) :
    ∃ sorted : List (Entry α), sorted.Perm entries ∧ (entriesObject entries).reread = entriesObject (sorted.map Entry.reread) := by
  have hpairs : (entries.map fun entry => (entry.key, entry)).map Prod.snd = entries := by
    rw [List.map_map]
    exact List.map_id entries
  have hkeys : ((entries.map fun entry => (entry.key, entry)).map Prod.fst).Nodup := by
    rw [List.map_map]
    exact hnodup
  refine ⟨(Json.sortMembers (entries.map fun entry => (entry.key, entry))).map Prod.snd, ?_, ?_⟩
  · have hperm := (Json.perm_sortMembers hkeys).map Prod.snd
    rwa [hpairs] at hperm
  · have hkey : ∀ member ∈ Json.sortMembers (entries.map fun entry => (entry.key, entry)), member.1 = member.2.key := fun member hmember => by
      obtain ⟨entry, -, rfl⟩ := List.mem_map.mp (Json.mem_sortMembers hmember)
      rfl
    have hmembers : Json.rereadMembers (entries.map fun entry => (entry.key, entry.value)) =
        (entries.map fun entry => (entry.key, entry)).map fun member => (member.1, member.2.value.reread) := by
      rw [Json.rereadMembers_eq_map, List.map_map, List.map_map]
      rfl
    rw [entriesObject, Json.reread, hmembers, Json.sortMembers_map fun entry : Entry α => entry.value.reread, entriesObject, List.map_map, List.map_map]
    congr 1
    exact List.map_congr_left fun member hmember => by rw [hkey member hmember]; rfl

section

variable (hmembers : pairs.map Prod.fst = record.members) (hnames : (record.members.map (·.name)).Nodup)
  (hbrings : ∀ pair ∈ pairs, pair.1.Brings record depth a pair.2)
  (hcommute : ∀ x ∈ pairs, ∀ y ∈ pairs, ∀ r, x.2 (y.2 r) = y.2 (x.2 r))

include hbrings in
private theorem written_of_mem {entry : Entry α} (h : entry ∈ entriesOf a pairs) :
    ∃ pair ∈ pairs, pair.1.name = entry.key ∧ pair.2 = entry.put ∧ entry.value.IsWritable ∧ entry.value.depth ≤ depth ∧
      (∀ r, Reads (pair.1.read depth r) entry.value.render (entry.put r)) ∧ ∀ r, pair.1.decode entry.value.reread r = .ok (entry.put r) := by
  obtain ⟨pair, hpair, hencode, hkey, hput⟩ := exists_of_mem_entriesOf h
  refine ⟨pair, hpair, hkey, hput, ?_⟩
  obtain ⟨hnone, -, -⟩ | ⟨value, hvalue, hwritable, hdepth, hreads, hdecodes⟩ := hbrings pair hpair
  · rw [hnone] at hencode
    cases hencode
  · obtain rfl := Option.some.inj (hvalue.symm.trans hencode)
    rw [← hput]
    exact ⟨hwritable, hdepth, hreads, hdecodes⟩

include hcommute hbrings in
/-- Members that are left out are as in the blank record. -/
private theorem putAll_entriesOf : putAll record.blank (entriesOf a pairs) = pairs.foldl (fun r pair => pair.2 r) record.blank := by
  induction pairs using List.reverseRecOn with
  | nil => rfl
  | append_singleton pairs pair ih =>
    have hearlier := ih (fun other hother => hbrings other (List.mem_append_left _ hother))
      fun x hx y hy => hcommute x (List.mem_append_left _ hx) y (List.mem_append_left _ hy)
    have hlast : pair ∈ pairs ++ [pair] := List.mem_append_right _ (List.mem_singleton_self pair)
    rw [entriesOf, List.filterMap_append, ← entriesOf, List.foldl_append, List.foldl_cons, List.foldl_nil, ← hearlier]
    obtain ⟨hnone, -, hput⟩ | ⟨value, hvalue, -⟩ := hbrings pair hlast
    · have hpast := foldl_put (fun other hother => hcommute pair hlast other (List.mem_append_left _ hother)) record.blank
      rw [List.filterMap_cons, hnone, Option.map_none, List.filterMap_nil, List.append_nil, hearlier, hpast, hput]
    · rw [List.filterMap_cons, hvalue, Option.map_some, List.filterMap_nil, putAll, List.foldl_append]
      rfl

include hnames hmembers in
private theorem keys_nodup : ((entriesOf a pairs).map Entry.key).Nodup := by
  refine (keys_sublist a pairs).nodup ?_
  rwa [← hmembers, List.map_map] at hnames

include hmembers hnames hbrings

private theorem member?_of_entry {entry : Entry α} (h : entry ∈ entriesOf a pairs) :
    ∃ member, record.member? entry.key = some member ∧ entry.value.IsWritable ∧ entry.value.depth ≤ depth ∧
      (∀ r, Reads (member.read depth r) entry.value.render (entry.put r)) ∧ ∀ r, member.decode entry.value.reread r = .ok (entry.put r) := by
  obtain ⟨pair, hpair, hkey, -, hvalue⟩ := written_of_mem hbrings h
  have hmember : pair.1 ∈ record.members := hmembers ▸ List.mem_map_of_mem hpair
  exact ⟨pair.1, hkey ▸ member?_of_mem hnames hmember, hvalue⟩

/-- Nothing is missing where all entries are there. -/
private theorem missing?_eq_none {entries : List (Entry α)} (hall : ∀ entry ∈ entriesOf a pairs, ∃ other ∈ entries, other.key = entry.key) :
    record.missing? (record.seenAfter [] entries) = none := by
  rw [missing?, Option.map_eq_none_iff, List.find?_eq_none]
  intro member hmember hmissing
  rw [Bool.and_eq_true, beq_iff_eq, Bool.not_eq_true', List.contains_eq_mem, decide_eq_false_iff_not] at hmissing
  obtain ⟨hrequired, hunseen⟩ := hmissing
  obtain ⟨pair, hpair, rfl⟩ := List.mem_map.mp (hmembers ▸ hmember)
  obtain ⟨-, hpresence, -⟩ | ⟨value, hencode, -⟩ := hbrings pair hpair
  · exact hpresence hrequired
  · have hentry : ⟨pair.1.name, value, pair.2⟩ ∈ entriesOf a pairs :=
      List.mem_filterMap.mpr ⟨pair, hpair, by rw [hencode]; rfl⟩
    obtain ⟨other, hother, hkey⟩ := hall _ hentry
    have hseen := mem_seenAfter hother (by rw [hkey, member?_of_mem hnames hmember]; rfl) []
    rw [hkey] at hseen
    exact hunseen hseen

include hcommute

theorem returns_pairs (hputs : pairs.foldl (fun r pair => pair.2 r) record.blank = b) : record.codec.Returns (depth + 1) a b := by
  have hencode := encode_entriesOf (a := a) hmembers
  have hnodup := keys_nodup (a := a) hmembers hnames
  have hput : putAll record.blank (entriesOf a pairs) = b := (putAll_entriesOf hbrings hcommute).trans hputs
  constructor
  case writable =>
    rw [hencode, entriesObject, Json.IsWritable, Json.membersWritable_iff]
    intro member hmember
    obtain ⟨entry, hentry, rfl⟩ := List.mem_map.mp hmember
    obtain ⟨_, _, hwritable, -⟩ := member?_of_entry hmembers hnames hbrings hentry
    exact hwritable
  case shallow =>
    rw [hencode, entriesObject, Json.depth]
    refine Nat.succ_le_succ (Nat.le_of_not_lt fun hdeep => ?_)
    obtain ⟨member, hmember, hless⟩ := Json.exists_of_lt_membersDepth hdeep
    obtain ⟨entry, hentry, rfl⟩ := List.mem_map.mp hmember
    obtain ⟨_, _, -, hdepth, -⟩ := member?_of_entry hmembers hnames hbrings hentry
    exact absurd hless (Nat.not_lt.mpr hdepth)
  case reads =>
    have hsuits : ∀ entry ∈ entriesOf a pairs, entry.Suits record depth := fun entry hentry => by
      obtain ⟨member, hmember, -, -, hreads, -⟩ := member?_of_entry hmembers hnames hbrings hentry
      rw [Entry.Suits, hmember]
      exact hreads
    rw [hencode, ← hput]
    exact read_rendered hsuits hnodup (missing?_eq_none hmembers hnames hbrings fun entry hentry => ⟨entry, hentry, rfl⟩)
  case decodes =>
    obtain ⟨sorted, hperm, hreread⟩ := exists_reread hnodup
    have hdecodes : ∀ entry ∈ sorted.map Entry.reread, entry.Decodes record := fun entry hentry => by
      obtain ⟨source, hsource, rfl⟩ := List.mem_map.mp hentry
      obtain ⟨member, hmember, -, -, -, hdecodes⟩ := member?_of_entry hmembers hnames hbrings (hperm.mem_iff.mp hsource)
      rw [Entry.Decodes, show source.reread.key = source.key from rfl, hmember]
      exact hdecodes
    have hcomplete : record.missing? (record.seenAfter [] (sorted.map Entry.reread)) = none :=
      missing?_eq_none hmembers hnames hbrings fun entry hentry => ⟨entry.reread, List.mem_map_of_mem (hperm.mem_iff.mpr hentry), rfl⟩
    have hsame : putAll record.blank (sorted.map Entry.reread) = b := by
      rw [← hput, putAll, List.foldl_map]
      refine (putAll_perm hperm.symm (fun x hx y hy r => ?_) record.blank).symm
      obtain ⟨pair, hpair, -, hx', -⟩ := written_of_mem hbrings hx
      obtain ⟨other, hother, -, hy', -⟩ := written_of_mem hbrings hy
      rw [← hx', ← hy']
      exact hcommute pair hpair other hother r
    rw [hencode, hreread, ← hsame]
    exact decode_entriesObject hdecodes hcomplete

end

/-- A record is given back if all its members are. The puts say what they do to the record that is read. -/
theorem returns {puts : List (α → α)} (hbrings : List.Forall₂ (RecordMember.Brings record depth a) record.members puts)
    (hnames : (record.members.map (·.name)).Nodup) (hcommute : puts.Pairwise fun f g => ∀ r, f (g r) = g (f r))
    (hputs : puts.foldl (fun r put => put r) record.blank = b) : record.codec.Returns (depth + 1) a b := by
  have hlength := hbrings.length_eq
  refine returns_pairs (List.map_fst_zip hlength.le) hnames (fun pair hpair => (List.forall₂_iff_zip.mp hbrings).2 hpair) ?_ ?_
  · have hsymm : Std.Symm fun f g : α → α => ∀ r, f (g r) = g (f r) := ⟨fun _ _ h r => (h r).symm⟩
    exact fun x hx y hy => hcommute.forall_of_forall (fun _ _ _ => rfl) (List.of_mem_zip hx).2 (List.of_mem_zip hy).2
  · have hfold : (record.members.zip puts).foldl (fun r pair => pair.2 r) record.blank =
        ((record.members.zip puts).map Prod.snd).foldl (fun r put => put r) record.blank := by
      rw [List.foldl_map]
    rw [hfold, List.map_snd_zip hlength.ge, hputs]

end RecordType

end LoadGenerator
