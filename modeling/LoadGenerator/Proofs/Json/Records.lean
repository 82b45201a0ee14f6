import LoadGenerator.Json.Record
import LoadGenerator.Proofs.Json.Depth
import LoadGenerator.Proofs.Json.Skipping

/-!
# Reading back records

A record is read from the text of an object member by member. Each member that the record type knows changes the record, each other one is passed over, and at the end the record lacks what it has to have or is there. What the members change is known from their codecs, each of which reads back what it wrote.
-/

namespace LoadGenerator

open JsonReader

/-! ## Codecs -/

namespace JsonCodec

variable {α : Type}

theorem reads_expecting {accepts : Char → Bool} {reader : JsonReader α} {text : List Char} {a : α} {expected : String}
    (hstart : ∃ c cs, text = c :: cs ∧ isJsonBlank c = false ∧ accepts c = true) (h : Reads reader text a) :
    Reads (expecting accepts expected reader) text a := by
  intro rest hrest
  obtain ⟨c, cs, hcons, hblank, haccepts⟩ := hstart
  have hread := h rest hrest
  rw [hcons, List.cons_append] at hread ⊢
  rw [expecting, bind_of_ok (skipBlanks_cons hblank _)]
  simp only [get_bind, haccepts, if_true]
  exact hread

theorem reads_string (s : String) (d : Nat) : Reads (string.read d) (Json.renderString s) s :=
  reads_expecting ⟨_, _, rfl, rfl, rfl⟩ fun rest _ => string_rendered s rest

theorem reads_json {v : Json} (hwritable : v.IsWritable) {d : Nat} (hdepth : v.depth ≤ d) : Reads (json.read d) v.render v.reread :=
  value_rendered hwritable hdepth

theorem reads_none (inner : JsonCodec α) (d : Nat) : Reads (inner.option.read d) Json.null.render none := fun _ _ => rfl

theorem reads_some {inner : JsonCodec α} {d : Nat} {text : List Char} {a : α}
    (hstart : ∃ c cs, text = c :: cs ∧ isJsonBlank c = false ∧ c ≠ 'n') (h : Reads (inner.read d) text a) :
    Reads (inner.option.read d) text (some a) := by
  intro rest hrest
  obtain ⟨c, cs, hcons, hblank, hn⟩ := hstart
  have hread := map_of_ok (h rest hrest) some
  rw [hcons, List.cons_append] at hread ⊢
  simp only [option]
  rw [bind_of_ok (skipBlanks_cons hblank _), get_bind]
  simpa [hn] using hread

/-- An object whose members are read one by one comes back in the order of its keys. -/
theorem reads_map {inner : JsonCodec α} {d : Nat} {members : List (String × α)}
    (h : ∀ member ∈ members, Reads (inner.read d) (inner.encode member.2).render member.2) :
    Reads (inner.map.read (d + 1)) (inner.map.encode members).render (Json.sortMembers members) := by
  refine reads_expecting ⟨_, _, rfl, rfl, rfl⟩ fun rest _ => ?_
  have hobject := map_of_ok (object_rendered Prod.fst h rest) Json.sortMembers
  rw [show (members.map fun member => (member.1, member.2)) = members from List.map_id _] at hobject
  rw [map, Json.render, Json.renderMembers_eq, List.map_map, List.cons_append, List.cons_append, List.append_assoc,
    List.singleton_append]
  exact hobject

end JsonCodec

/-! ## Members -/

namespace RecordType

variable {α : Type} {record : RecordType α} {depth : Nat}

/-- A member as it was written, with what it does to a record that is read. -/
structure Entry (α : Type) where
  key : String
  value : Json
  put : α → α

/-- A known member changes the record, an unknown one is passed over. -/
def Entry.Suits (record : RecordType α) (depth : Nat) (entry : Entry α) : Prop :=
  match record.member? entry.key with
  | some member => ∀ a, Reads (member.read depth a) entry.value.render (entry.put a)
  | none => entry.value.IsWritable ∧ entry.put = id

/-- The text of the member. -/
def Entry.text (entry : Entry α) : List Char := Json.renderMember (entry.key, entry.value)

/-- The names that have occurred after some members. -/
def seenAfter (record : RecordType α) (seen : List String) (entries : List (Entry α)) : List String :=
  entries.foldl (fun seen entry => if (record.member? entry.key).isSome then entry.key :: seen else seen) seen

/-- The record after some members. -/
def putAll (a : α) (entries : List (Entry α)) : α := entries.foldl (fun a entry => entry.put a) a

private theorem readMembers_entry {entry : Entry α} (hentry : entry.Suits record depth) {fuel : Nat} {first : Bool} {seen : List String}
    (hnew : entry.key ∉ seen) {a : α} {s tail : List Char} (htail : Stops tail)
    (hkey : nextKey first s = .ok (some entry.key, ':' :: (entry.value.render ++ tail))) :
    record.readMembers depth (fuel + 1) first seen a s =
      record.readMembers depth fuel false (record.seenAfter seen [entry]) (entry.put a) tail := by
  rw [readMembers, bind_of_ok hkey]
  simp only [seenAfter, List.foldl_cons, List.foldl_nil]
  rw [Entry.Suits] at hentry
  cases hmember : record.member? entry.key with
  | none =>
    rw [hmember] at hentry
    obtain ⟨hwritable, hput⟩ := hentry
    simp only [Option.isSome_none, Bool.false_eq_true, if_false, hput, id]
    rw [bind_of_ok (colon_cons _), bind_of_ok (skipValue_rendered hwritable _ htail)]
  | some member =>
    rw [hmember] at hentry
    have hunseen : seen.contains entry.key = false := by simpa using hnew
    simp only [Option.isSome_some, if_true, hunseen, Bool.false_eq_true, if_false]
    rw [bind_of_ok (colon_cons _), bind_of_ok (hentry a _ htail)]

private theorem notMem_seenAfter {key : String} {seen : List String} (hseen : key ∉ seen) {entry : Entry α} (hne : entry.key ≠ key) :
    key ∉ record.seenAfter seen [entry] := by
  simp only [seenAfter, List.foldl_cons, List.foldl_nil]
  split_ifs
  · rw [List.mem_cons, not_or]
    exact ⟨hne.symm, hseen⟩
  · exact hseen

private theorem readMembers_entries {entries : List (Entry α)} (hentries : ∀ entry ∈ entries, entry.Suits record depth)
    (hnodup : (entries.map Entry.key).Nodup) {seen : List String} (hnew : ∀ entry ∈ entries, entry.key ∉ seen) (fuel : Nat) (a : α)
    {tail : List Char} (htail : Stops tail) :
    record.readMembers depth (fuel + entries.length) false seen a ((entries.map Entry.text).flatMap (fun next => ',' :: next) ++ tail) =
      record.readMembers depth fuel false (record.seenAfter seen entries) (putAll a entries) tail := by
  induction entries generalizing seen a with
  | nil => rfl
  | cons entry entries ih =>
    rw [List.map_cons, List.nodup_cons] at hnodup
    have hlater : ∀ next ∈ entries, next.key ∉ record.seenAfter seen [entry] := fun next hnext =>
      notMem_seenAfter (hnew next (by simp [hnext])) fun heq => hnodup.1 (heq ▸ List.mem_map_of_mem hnext)
    have hkey : nextKey false (',' :: (entry.text ++ ((entries.map Entry.text).flatMap (fun next => ',' :: next) ++ tail))) =
        .ok (some entry.key, ':' :: (entry.value.render ++ ((entries.map Entry.text).flatMap (fun next => ',' :: next) ++ tail))) := by
      rw [Entry.text, Json.renderMember, List.append_assoc, List.cons_append, nextKey_comma]
    rw [List.map_cons, List.flatMap_cons, List.append_assoc, List.cons_append, List.length_cons, ← add_assoc,
      readMembers_entry (hentries entry (by simp)) (hnew entry (by simp)) (stops_flatMap_comma _ htail) hkey,
      ih (fun next hnext => hentries next (by simp [hnext])) hnodup.2 hlater]
    rfl

/-- Some members after an open brace, with fuel for what follows them. -/
private theorem readMembers_open {entries : List (Entry α)} (hentries : ∀ entry ∈ entries, entry.Suits record depth)
    (hnodup : (entries.map Entry.key).Nodup) (hnonempty : entries ≠ []) (a : α) {tail : List Char} (htail : Stops tail) :
    ∃ fuel, record.readMembers depth ((Json.commaSeparated (entries.map Entry.text) ++ tail).length + 1) true [] a
        (Json.commaSeparated (entries.map Entry.text) ++ tail) =
      record.readMembers depth (fuel + 1) false (record.seenAfter [] entries) (putAll a entries) tail := by
  obtain ⟨entry, entries, rfl⟩ := List.exists_cons_of_ne_nil hnonempty
  have hlength := length_le_commaSeparated ((entry :: entries).map Entry.text) fun other hother => by
    obtain ⟨source, -, rfl⟩ := List.mem_map.mp hother
    simp [Entry.text, Json.renderMember, Json.renderString]
  rw [List.length_map, List.length_cons] at hlength
  obtain ⟨fuel, hfuel⟩ : ∃ fuel,
      (Json.commaSeparated ((entry :: entries).map Entry.text) ++ tail).length + 1 = fuel + 1 + entries.length + 1 :=
    ⟨(Json.commaSeparated ((entry :: entries).map Entry.text) ++ tail).length - 1 - entries.length, by
      rw [List.length_append] at *
      omega⟩
  refine ⟨fuel, ?_⟩
  rw [List.map_cons, List.nodup_cons] at hnodup
  have hlater : ∀ next ∈ entries, next.key ∉ record.seenAfter [] [entry] := fun next hnext =>
    notMem_seenAfter List.not_mem_nil fun heq => hnodup.1 (heq ▸ List.mem_map_of_mem hnext)
  have hkey : nextKey true (entry.text ++ ((entries.map Entry.text).flatMap (fun next => ',' :: next) ++ tail)) =
      .ok (some entry.key, ':' :: (entry.value.render ++ ((entries.map Entry.text).flatMap (fun next => ',' :: next) ++ tail))) := by
    rw [Entry.text, Json.renderMember, List.append_assoc, List.cons_append, nextKey_first]
  rw [hfuel, List.map_cons, Json.commaSeparated, List.append_assoc,
    readMembers_entry (hentries entry (by simp)) List.not_mem_nil (stops_flatMap_comma _ htail) hkey,
    readMembers_entries (fun next hnext => hentries next (by simp [hnext])) hnodup.2 hlater _ _ htail]
  rfl

private theorem readMembers_rendered {entries : List (Entry α)} (hentries : ∀ entry ∈ entries, entry.Suits record depth)
    (hnodup : (entries.map Entry.key).Nodup) (a : α) (rest : List Char) :
    record.readMembers depth ((Json.commaSeparated (entries.map Entry.text) ++ '\x7d' :: rest).length + 1) true [] a
      (Json.commaSeparated (entries.map Entry.text) ++ '\x7d' :: rest) =
      .ok ((record.seenAfter [] entries, putAll a entries), '\x7d' :: rest) := by
  by_cases hempty : entries = []
  · subst hempty
    rw [List.map_nil, Json.commaSeparated, List.nil_append, readMembers, bind_of_ok (nextKey_end true rest)]
    rfl
  · obtain ⟨fuel, hopen⟩ := readMembers_open hentries hnodup hempty a (stops_brace rest)
    rw [hopen, readMembers, bind_of_ok (nextKey_end false rest)]
    rfl

/-- The object of some members. -/
def entriesObject (entries : List (Entry α)) : Json := .object (entries.map fun entry => (entry.key, entry.value))

theorem render_entriesObject (entries : List (Entry α)) (rest : List Char) :
    (entriesObject entries).render ++ rest = '\x7b' :: (Json.commaSeparated (entries.map Entry.text) ++ '\x7d' :: rest) := by
  rw [entriesObject, Json.render, Json.renderMembers_eq, List.map_map, List.cons_append, List.cons_append, List.append_assoc,
    List.singleton_append]
  rfl

private theorem read_entriesObject (entries : List (Entry α)) (rest : List Char) :
    record.read (depth + 1) ((entriesObject entries).render ++ rest) =
      bracketed endObject (record.readObject depth) ((entriesObject entries).render ++ rest) := by
  rw [render_entriesObject, read, expecting, bind_of_ok (skipBlanks_cons rfl _)]
  rfl

section

variable {entries : List (Entry α)} (hentries : ∀ entry ∈ entries, entry.Suits record depth) (hnodup : (entries.map Entry.key).Nodup)

include hentries hnodup

private theorem readObject_rendered (rest : List Char) :
    record.readObject depth (Json.commaSeparated (entries.map Entry.text) ++ '\x7d' :: rest) =
      match record.missing? (record.seenAfter [] entries) with
      | some name => .error (.unplaced (.missingField name) ('\x7d' :: rest))
      | none => .ok (putAll record.blank entries, '\x7d' :: rest) := by
  rw [readObject, get_bind, bind_of_ok (readMembers_rendered hentries hnodup record.blank rest)]
  dsimp only
  cases record.missing? (record.seenAfter [] entries) <;> rfl

theorem read_rendered (hcomplete : record.missing? (record.seenAfter [] entries) = none) :
    Reads (record.read (depth + 1)) (entriesObject entries).render (putAll record.blank entries) := by
  intro rest _
  have hobject := readObject_rendered hentries hnodup rest
  rw [hcomplete] at hobject
  rw [read_entriesObject, render_entriesObject]
  exact bracketed_of_ok hobject rfl

/-- A record that lacks something is refused by its name. -/
theorem read_incomplete {name : String} (hmissing : record.missing? (record.seenAfter [] entries) = some name) (rest : List Char) :
    record.read (depth + 1) ((entriesObject entries).render ++ rest) = .error (.placed (.missingField name) (Utf8.size rest)) := by
  have hobject := readObject_rendered hentries hnodup rest
  rw [hmissing] at hobject
  rw [read_entriesObject, render_entriesObject, bracketed, List.drop_succ_cons, List.drop_zero, hobject]
  rfl

end

/-- A record is refused where the value of its last member is. -/
theorem read_refused {front : List (Entry α)} (hfront : ∀ entry ∈ front, entry.Suits record depth) (hnonempty : front ≠ [])
    {last : Entry α} (hnodup : ((front ++ [last]).map Entry.key).Nodup) (hnew : last.key ∉ record.seenAfter [] front)
    {member : RecordMember α} (hmember : record.member? last.key = some member)
    (hlast : ∀ a, Refuses (member.read depth a) last.value.render) (rest : List Char) :
    ∃ failure, record.read (depth + 1) ((entriesObject (front ++ [last])).render ++ rest) = .error failure := by
  have htext : Json.commaSeparated ((front ++ [last]).map Entry.text) = Json.commaSeparated (front.map Entry.text) ++ ',' :: last.text := by
    obtain ⟨first, front, rfl⟩ := List.exists_cons_of_ne_nil hnonempty
    simp [Json.commaSeparated]
  rw [read_entriesObject, render_entriesObject, htext, List.append_assoc, List.cons_append]
  refine bracketed_of_error ?_
  rw [List.map_append] at hnodup
  obtain ⟨fuel, hopen⟩ := readMembers_open hfront hnodup.of_append_left hnonempty record.blank
    (stops_comma (last.text ++ '\x7d' :: rest))
  have hunseen : (record.seenAfter [] front).contains last.key = false := by simpa using hnew
  obtain ⟨failure, hfailure⟩ := hlast (putAll record.blank front) _ (stops_brace rest)
  refine ⟨failure, ?_⟩
  rw [readObject, get_bind]
  refine bind_of_error ?_ _
  rw [hopen, Entry.text, Json.renderMember, List.append_assoc, List.cons_append, readMembers, bind_of_ok (nextKey_comma _ _)]
  simp only [hmember, hunseen, Bool.false_eq_true, if_false]
  rw [bind_of_ok (colon_cons _), bind_of_error hfailure]

/-! ### From a value -/

/-- The entry is taken from the value of its member. -/
def Entry.Decodes (record : RecordType α) (entry : Entry α) : Prop :=
  match record.member? entry.key with
  | some member => ∀ a, member.decode entry.value a = .ok (entry.put a)
  | none => entry.put = id

private theorem decodeObject_entries {entries : List (Entry α)} (h : ∀ entry ∈ entries, entry.Decodes record) (seen : List String) (a : α) :
    record.decodeObject (entries.map fun entry => (entry.key, entry.value)) seen a =
      match record.missing? (record.seenAfter seen entries) with
      | some name => .error (.missingField name)
      | none => .ok (putAll a entries) := by
  induction entries generalizing seen a with
  | nil => rfl
  | cons entry entries ih =>
    have hentry := h entry (by simp)
    have hrest := fun seen a => ih (fun next hnext => h next (by simp [hnext])) seen a
    rw [Entry.Decodes] at hentry
    rw [List.map_cons, decodeObject, seenAfter, List.foldl_cons, ← seenAfter, putAll, List.foldl_cons, ← putAll]
    cases hmember : record.member? entry.key with
    | none =>
      rw [hmember] at hentry
      dsimp only
      rw [hrest, show entry.put = id from hentry]
      rfl
    | some member =>
      rw [hmember] at hentry
      dsimp only
      rw [show member.decode entry.value a = .ok (entry.put a) from hentry a]
      exact hrest _ _

theorem decode_entriesObject {entries : List (Entry α)} (h : ∀ entry ∈ entries, entry.Decodes record)
    (hcomplete : record.missing? (record.seenAfter [] entries) = none) :
    record.decode (entriesObject entries) = .ok (putAll record.blank entries) := by
  rw [entriesObject, decode, decodeObject_entries h, hcomplete]

end RecordType

theorem RecordMember.reads_of {α β : Type} {codec : JsonCodec β} {depth : Nat} {text : List Char} {b : β}
    (h : Reads (codec.read depth) text b) {name : String} {presence : Presence} {get : α → β} {put : β → α → α} {omitted : β → Bool}
    (a : α) : Reads ((RecordMember.of name presence codec get put omitted).read depth a) text (put b a) := by
  intro rest hrest
  change (codec.read depth >>= fun b => pure (put b a)) (text ++ rest) = _
  rw [bind_of_ok (h rest hrest), pure_apply]

theorem RecordMember.decode_of {α β : Type} {codec : JsonCodec β} {value : Json} {b : β} (h : codec.decode value = .ok b) {name : String}
    {presence : Presence} {get : α → β} {put : β → α → α} {omitted : β → Bool} (a : α) :
    (RecordMember.of name presence codec get put omitted).decode value a = .ok (put b a) := by
  change (codec.decode value >>= fun b => pure (put b a)) = _
  rw [h]
  rfl

theorem RecordMember.refuses_of {α β : Type} {codec : JsonCodec β} {depth : Nat} {text : List Char} (h : Refuses (codec.read depth) text)
    {name : String} {presence : Presence} {get : α → β} {put : β → α → α} {omitted : β → Bool} (a : α) :
    Refuses ((RecordMember.of name presence codec get put omitted).read depth a) text := by
  intro rest hrest
  obtain ⟨failure, hfailure⟩ := h rest hrest
  exact ⟨failure, bind_of_error hfailure _⟩

theorem JsonReader.run_line {α : Type} {reader : JsonReader α} {text : List Char} {a : α} (h : Reads reader text a) :
    run reader (text ++ ['\n']) = .ok a := by
  rw [run, bind_of_ok (h ['\n'] ⟨rfl, by decide, by decide, by decide⟩)]
  rfl

theorem JsonReader.run_line_of_error {α : Type} {reader : JsonReader α} {text : List Char}
    (h : ∃ failure, reader (text ++ ['\n']) = .error failure) : ∃ e, run reader (text ++ ['\n']) = .error e := by
  obtain ⟨failure, hfailure⟩ := h
  rw [run, bind_of_error hfailure]
  cases failure with
  | placed problem left => exact ⟨_, rfl⟩
  | unplaced problem rest => exact ⟨_, rfl⟩

end LoadGenerator
