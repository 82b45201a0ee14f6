import LoadGenerator.Proofs.Json.Canonical
import LoadGenerator.Proofs.Json.Reals

/-!
# Reading back values

A value whose numbers are finite is read from its text to its end. Objects come back in the order of their keys and numbers as they are read, so a canonical value without fractions comes back as it was.
-/

namespace LoadGenerator

open JsonReader

/-! ## What a value is read as -/

/-- What a number is read as, from its text. -/
def JsonNumber.reread (n : JsonNumber) : JsonNumber :=
  match JsonReader.number n.render with
  | .ok (m, _) => m
  | .error _ => n

/-- What a finite number that is not an integer is read as. -/
def Binary64.reread (x : Binary64) : Binary64 :=
  match (JsonNumber.real x).reread with
  | .real y => y
  | _ => x

/-- The number has a text. -/
def JsonNumber.IsWritable : JsonNumber → Prop
  | .real x => x.isFinite = true
  | _ => True

namespace Json

mutual

/-- All numbers have texts. -/
def IsWritable : Json → Prop
  | number n => n.IsWritable
  | array items => AllWritable items
  | object members => MembersWritable members
  | _ => True

def AllWritable : List Json → Prop
  | [] => True
  | item :: rest => item.IsWritable ∧ AllWritable rest

def MembersWritable : List (String × Json) → Prop
  | [] => True
  | (_, value) :: rest => value.IsWritable ∧ MembersWritable rest

end

mutual

/-- How many lists and objects are around each other. -/
def depth : Json → Nat
  | array items => itemsDepth items + 1
  | object members => membersDepth members + 1
  | _ => 0

def itemsDepth : List Json → Nat
  | [] => 0
  | item :: rest => max item.depth (itemsDepth rest)

def membersDepth : List (String × Json) → Nat
  | [] => 0
  | (_, value) :: rest => max value.depth (membersDepth rest)

end

mutual

/-- What a value is read as, from its text. -/
def reread : Json → Json
  | number n => number n.reread
  | array items => array (rereadItems items)
  | object members => object (sortMembers (rereadMembers members))
  | value => value

def rereadItems : List Json → List Json
  | [] => []
  | item :: rest => item.reread :: rereadItems rest

def rereadMembers : List (String × Json) → List (String × Json)
  | [] => []
  | (key, value) :: rest => (key, value.reread) :: rereadMembers rest

end

theorem allWritable_iff {items : List Json} : AllWritable items ↔ ∀ item ∈ items, item.IsWritable := by
  induction items with
  | nil => simp [AllWritable]
  | cons item items ih => rw [AllWritable, ih, List.forall_mem_cons]

theorem membersWritable_iff {members : List (String × Json)} :
    MembersWritable members ↔ ∀ member ∈ members, member.2.IsWritable := by
  induction members with
  | nil => simp [MembersWritable]
  | cons member members ih => rw [MembersWritable, ih, List.forall_mem_cons]

theorem depth_le_itemsDepth {items : List Json} {item : Json} (h : item ∈ items) : item.depth ≤ itemsDepth items := by
  induction items with
  | nil => cases h
  | cons first items ih =>
    rw [itemsDepth]
    rcases List.mem_cons.mp h with rfl | hrest
    · exact le_max_left _ _
    · exact (ih hrest).trans (le_max_right _ _)

theorem depth_le_membersDepth {members : List (String × Json)} {member : String × Json} (h : member ∈ members) :
    member.2.depth ≤ membersDepth members := by
  induction members with
  | nil => cases h
  | cons first members ih =>
    rw [membersDepth]
    rcases List.mem_cons.mp h with rfl | hrest
    · exact le_max_left _ _
    · exact (ih hrest).trans (le_max_right _ _)

theorem exists_of_lt_itemsDepth {items : List Json} {d : Nat} (h : d < itemsDepth items) : ∃ item ∈ items, d < item.depth := by
  induction items with
  | nil => exact absurd h (Nat.not_lt_zero d)
  | cons item items ih =>
    rcases lt_max_iff.mp h with hitem | hrest
    · exact ⟨item, by simp, hitem⟩
    · obtain ⟨next, hnext, hdeep⟩ := ih hrest
      exact ⟨next, by simp [hnext], hdeep⟩

theorem exists_of_lt_membersDepth {members : List (String × Json)} {d : Nat} (h : d < membersDepth members) :
    ∃ member ∈ members, d < member.2.depth := by
  induction members with
  | nil => exact absurd h (Nat.not_lt_zero d)
  | cons member members ih =>
    rcases lt_max_iff.mp h with hmember | hrest
    · exact ⟨member, by simp, hmember⟩
    · obtain ⟨next, hnext, hdeep⟩ := ih hrest
      exact ⟨next, by simp [hnext], hdeep⟩

theorem rereadItems_eq_map (items : List Json) : rereadItems items = items.map reread := by
  induction items with
  | nil => rfl
  | cons item items ih => rw [rereadItems, ih, List.map_cons]

theorem rereadMembers_eq_map (members : List (String × Json)) :
    rereadMembers members = members.map fun member => (member.1, member.2.reread) := by
  induction members with
  | nil => rfl
  | cons member members ih => rw [rereadMembers, ih, List.map_cons]

/-! ## The text of lists and objects -/

/-- Texts with commas between them. -/
def commaSeparated : List (List Char) → List Char
  | [] => []
  | text :: rest => text ++ rest.flatMap fun next => ',' :: next

theorem renderItems_eq (items : List Json) : renderItems items = commaSeparated (items.map render) := by
  induction items with
  | nil => rfl
  | cons item items ih =>
    cases items with
    | nil => simp [renderItems, commaSeparated]
    | cons next items => simp [renderItems, ih, commaSeparated]

/-- The text of one member. -/
def renderMember (member : String × Json) : List Char := renderString member.1 ++ ':' :: member.2.render

theorem renderMembers_eq (members : List (String × Json)) : renderMembers members = commaSeparated (members.map renderMember) := by
  induction members with
  | nil => rfl
  | cons member members ih =>
    obtain ⟨key, value⟩ := member
    cases members with
    | nil => simp [renderMembers, commaSeparated, renderMember]
    | cons next members => simp [renderMembers, ih, commaSeparated, renderMember]

end Json

namespace JsonReader

open Text

/-! ## Lists and objects -/

/-- The reader takes the text for the value, whatever follows it, unless that goes on with a number. -/
def Reads {α : Type} (reader : JsonReader α) (text : List Char) (a : α) : Prop :=
  ∀ rest, Stops rest → reader (text ++ rest) = .ok (a, rest)

/-- The text begins like a value. -/
def StartsValue (text : List Char) : Prop := ∃ c cs, text = c :: cs ∧ isJsonBlank c = false ∧ c ≠ ']'

theorem skipBlanks_cons {c : Char} (hc : isJsonBlank c = false) (rest : List Char) :
    skipBlanks (c :: rest) = .ok (⟨⟩, c :: rest) := by
  change Except.ok (PUnit.unit, (c :: rest).dropWhile isJsonBlank) = _
  rw [List.dropWhile_cons, hc]
  rfl

section

variable {α β : Type} {reader : JsonReader α}

theorem nextElement_end (first : Bool) (rest : List Char) : nextElement first (']' :: rest) = .ok (false, ']' :: rest) := by
  rw [nextElement, bind_of_ok (skipBlanks_cons rfl _)]
  rfl

theorem nextElement_first {text : List Char} (h : StartsValue text) (rest : List Char) :
    nextElement true (text ++ rest) = .ok (true, text ++ rest) := by
  obtain ⟨c, cs, rfl, hblank, hbracket⟩ := h
  rw [List.cons_append, nextElement, bind_of_ok (skipBlanks_cons hblank _)]
  simp [get_bind, hbracket, pure_apply]

theorem nextElement_comma {text : List Char} (h : StartsValue text) (rest : List Char) :
    nextElement false (',' :: (text ++ rest)) = .ok (true, text ++ rest) := by
  obtain ⟨c, cs, rfl, hblank, hbracket⟩ := h
  rw [nextElement, bind_of_ok (skipBlanks_cons rfl _)]
  simp only [get_bind, set_bind, show (',' : Char) ≠ ']' by decide, Bool.false_eq_true, if_true, if_false]
  rw [List.cons_append, bind_of_ok (skipBlanks_cons hblank _)]
  simp [get_bind, hbracket, pure_apply]

/-- Every text in a list has a character at least, so the fuel for the elements is enough. -/
theorem length_le_commaSeparated (texts : List (List Char)) (h : ∀ text ∈ texts, text ≠ []) :
    texts.length ≤ (Json.commaSeparated texts).length := by
  cases texts with
  | nil => exact le_rfl
  | cons text texts =>
    have hfirst := List.length_pos_iff.mpr (h text (by simp))
    have hrest : texts.length ≤ (texts.flatMap fun next => ',' :: next).length := by
      induction texts with
      | nil => simp
      | cons next texts ih =>
        have hnext := ih fun other hother => h other (by
          rcases List.mem_cons.mp hother with rfl | hmem
          · simp
          · simp [hmem])
        rw [List.flatMap_cons, List.length_append, List.length_cons, List.length_cons]
        omega
    rw [Json.commaSeparated, List.length_append, List.length_cons]
    omega

theorem bracketed_of_ok {finish : List Char → Except ReadFailure Unit × List Char} {inside : JsonReader α}
    {open_ : Char} {s rest last : List Char} {a : α} (hinside : inside s = .ok (a, rest)) (hfinish : finish rest = (.ok (), last)) :
    bracketed finish inside (open_ :: s) = .ok (a, last) := by
  rw [bracketed, List.drop_succ_cons, List.drop_zero, hinside]
  dsimp only
  rw [hfinish]

theorem stops_comma (rest : List Char) : Stops (',' :: rest) := ⟨rfl, by decide, by decide, by decide⟩

theorem stops_bracket (rest : List Char) : Stops (']' :: rest) := ⟨rfl, by decide, by decide, by decide⟩

theorem stops_brace (rest : List Char) : Stops ('\x7d' :: rest) := ⟨rfl, by decide, by decide, by decide⟩

/-- What follows the first of some texts between commas ends a number. -/
theorem stops_flatMap_comma (texts : List (List Char)) {rest : List Char} (hrest : Stops rest) :
    Stops (texts.flatMap (fun next => ',' :: next) ++ rest) := by
  cases texts with
  | nil => exact hrest
  | cons text texts => exact stops_comma _

theorem elements_rest {items : List β} {text : β → List Char} {value : β → α}
    (h : ∀ item ∈ items, Reads reader (text item) (value item) ∧ StartsValue (text item)) (fuel : Nat)
    (hfuel : items.length < fuel) (rest : List Char) :
    elements reader fuel false ((items.map text).flatMap (fun next => ',' :: next) ++ ']' :: rest) =
      .ok (items.map value, ']' :: rest) := by
  induction items generalizing fuel with
  | nil =>
    obtain ⟨fuel, rfl⟩ := Nat.exists_eq_add_one.mpr (Nat.zero_lt_of_lt hfuel)
    rw [List.map_nil, List.flatMap_nil, List.nil_append, elements, bind_of_ok (nextElement_end false rest)]
    rfl
  | cons item items ih =>
    obtain ⟨fuel, rfl⟩ := Nat.exists_eq_add_one.mpr (Nat.zero_lt_of_lt hfuel)
    obtain ⟨hreads, hstarts⟩ := h item (by simp)
    have hstops := stops_flatMap_comma (items.map text) (stops_bracket rest)
    rw [List.map_cons, List.flatMap_cons, List.append_assoc, List.cons_append, elements, bind_of_ok (nextElement_comma hstarts _), if_pos rfl,
      bind_of_ok (hreads _ hstops), bind_of_ok (ih (fun next hnext => h next (by simp [hnext])) fuel (by simpa using hfuel))]
    rfl

theorem list_rendered {items : List β} {text : β → List Char} {value : β → α}
    (h : ∀ item ∈ items, Reads reader (text item) (value item) ∧ StartsValue (text item)) (rest : List Char) :
    list reader ('[' :: (Json.commaSeparated (items.map text) ++ ']' :: rest)) = .ok (items.map value, rest) := by
  have hinside : (do let s ← get; elements reader (s.length + 1) true : JsonReader (List α))
      (Json.commaSeparated (items.map text) ++ ']' :: rest) = .ok (items.map value, ']' :: rest) := by
    rw [get_bind]
    cases items with
    | nil =>
      rw [elements, List.map_nil, Json.commaSeparated, List.nil_append, bind_of_ok (nextElement_end true rest)]
      rfl
    | cons item items =>
      obtain ⟨hreads, hstarts⟩ := h item (by simp)
      have hlength := length_le_commaSeparated ((item :: items).map text) fun other hother => by
        obtain ⟨source, hsource, rfl⟩ := List.mem_map.mp hother
        obtain ⟨c, cs, hcons, -⟩ := (h source hsource).2
        rw [hcons]
        simp
      rw [List.length_map, List.length_cons] at hlength
      have hstops := stops_flatMap_comma (items.map text) (stops_bracket rest)
      have hrest := elements_rest (fun next hnext => h next (List.mem_cons_of_mem item hnext))
        (Json.commaSeparated ((item :: items).map text) ++ ']' :: rest).length (by rw [List.length_append]; omega) rest
      rw [elements]
      rw [List.map_cons, Json.commaSeparated, List.append_assoc] at hrest ⊢
      rw [bind_of_ok (nextElement_first hstarts _), if_pos rfl, bind_of_ok (hreads _ hstops), bind_of_ok hrest]
      rfl
  exact bracketed_of_ok hinside rfl

/-! ### Members -/

theorem nextKey_end (first : Bool) (rest : List Char) : nextKey first ('\x7d' :: rest) = .ok (none, '\x7d' :: rest) := by
  rw [nextKey, bind_of_ok (skipBlanks_cons rfl _)]
  rfl

theorem nextKey_first (key : String) (rest : List Char) :
    nextKey true (Json.renderString key ++ rest) = .ok (some key, rest) := by
  have hstring := map_of_ok (string_rendered key rest) some
  rw [Json.renderString, List.cons_append, List.cons_append] at hstring ⊢
  rw [nextKey, bind_of_ok (skipBlanks_cons rfl _)]
  simp only [get_bind, show ('"' : Char) ≠ '\x7d' by decide, if_true, if_false]
  exact hstring

theorem nextKey_comma (key : String) (rest : List Char) :
    nextKey false (',' :: (Json.renderString key ++ rest)) = .ok (some key, rest) := by
  have hstring := map_of_ok (string_rendered key rest) some
  rw [nextKey, bind_of_ok (skipBlanks_cons rfl _)]
  simp only [get_bind, set_bind, show (',' : Char) ≠ '\x7d' by decide, Bool.false_eq_true, if_true, if_false]
  rw [Json.renderString, List.cons_append, List.cons_append] at hstring ⊢
  rw [bind_of_ok (skipBlanks_cons rfl _)]
  simp only [get_bind, if_true]
  exact hstring

theorem colon_cons (rest : List Char) : colon (':' :: rest) = .ok (⟨⟩, rest) := by
  rw [colon, bind_of_ok (skipBlanks_cons rfl _)]
  rfl

variable {key : β → String} {items : List β} {text : β → List Char} {value : β → α}

theorem members_rest (key : β → String) (h : ∀ item ∈ items, Reads reader (text item) (value item)) (fuel : Nat) (hfuel : items.length < fuel)
    (rest : List Char) :
    members reader fuel false
      ((items.map fun item => Json.renderString (key item) ++ ':' :: text item).flatMap (fun next => ',' :: next) ++ '\x7d' :: rest) =
      .ok (items.map fun item => (key item, value item), '\x7d' :: rest) := by
  induction items generalizing fuel with
  | nil =>
    obtain ⟨fuel, rfl⟩ := Nat.exists_eq_add_one.mpr (Nat.zero_lt_of_lt hfuel)
    rw [List.map_nil, List.flatMap_nil, List.nil_append, members, bind_of_ok (nextKey_end false rest)]
    rfl
  | cons item items ih =>
    obtain ⟨fuel, rfl⟩ := Nat.exists_eq_add_one.mpr (Nat.zero_lt_of_lt hfuel)
    have hstops := stops_flatMap_comma (items.map fun item => Json.renderString (key item) ++ ':' :: text item) (stops_brace rest)
    have hrest := ih (fun next hnext => h next (by simp [hnext])) fuel (by simpa using hfuel)
    rw [List.map_cons, List.flatMap_cons, List.append_assoc, List.cons_append, List.append_assoc, List.cons_append, members,
      bind_of_ok (nextKey_comma _ _)]
    dsimp only
    rw [bind_of_ok (colon_cons _), bind_of_ok (h item (by simp) _ hstops), bind_of_ok hrest]
    rfl

theorem object_rendered (key : β → String) (h : ∀ item ∈ items, Reads reader (text item) (value item)) (rest : List Char) :
    object reader
      ('\x7b' :: (Json.commaSeparated (items.map fun item => Json.renderString (key item) ++ ':' :: text item) ++ '\x7d' :: rest)) =
      .ok (items.map fun item => (key item, value item), rest) := by
  have hinside : (do let s ← get; members reader (s.length + 1) true : JsonReader (List (String × α)))
      (Json.commaSeparated (items.map fun item => Json.renderString (key item) ++ ':' :: text item) ++ '\x7d' :: rest) =
      .ok (items.map fun item => (key item, value item), '\x7d' :: rest) := by
    rw [get_bind]
    cases items with
    | nil =>
      rw [members, List.map_nil, Json.commaSeparated, List.nil_append, bind_of_ok (nextKey_end true rest)]
      rfl
    | cons item items =>
      have hlength := length_le_commaSeparated ((item :: items).map fun item => Json.renderString (key item) ++ ':' :: text item)
        fun other hother => by
          obtain ⟨source, -, rfl⟩ := List.mem_map.mp hother
          simp [Json.renderString]
      rw [List.length_map, List.length_cons] at hlength
      have hstops := stops_flatMap_comma (items.map fun item => Json.renderString (key item) ++ ':' :: text item) (stops_brace rest)
      have hrest := members_rest key (fun next hnext => h next (List.mem_cons_of_mem item hnext))
        (Json.commaSeparated ((item :: items).map fun item => Json.renderString (key item) ++ ':' :: text item) ++ '\x7d' :: rest).length
        (by rw [List.length_append]; omega) rest
      rw [members]
      rw [List.map_cons, Json.commaSeparated, List.append_assoc, List.append_assoc, List.cons_append] at hrest ⊢
      rw [bind_of_ok (nextKey_first _ _)]
      dsimp only
      rw [bind_of_ok (colon_cons _), bind_of_ok (h item (by simp) _ hstops), bind_of_ok hrest]
      rfl
  exact bracketed_of_ok hinside rfl

end

/-! ## Scalars -/

theorem startsNumber_of_number {s rest : List Char} {n : JsonNumber} (h : number s = .ok (n, rest)) :
    ∃ c cs, s = c :: cs ∧ startsNumber c = true := by
  cases s with
  | nil => cases h
  | cons c cs =>
    refine ⟨c, cs, rfl, ?_⟩
    by_cases hminus : c = '-'
    · rw [hminus]
      rfl
    · cases hdigit : isDigit c with
      | true => rw [startsNumber, hdigit, Bool.or_true]
      | false =>
        have hzero : c ≠ '0' := by
          rintro rfl
          cases hdigit
        rw [number_unsigned hminus] at h
        simp [unsignedNumber, get_bind, hdigit, failNext] at h

theorem number_rendered {n : JsonNumber} (h : n.IsWritable) : Reads number n.render n.reread := by
  have hread : ∃ m, ∀ rest, Stops rest → number (n.render ++ rest) = .ok (m, rest) := by
    cases n with
    | natural n => exact ⟨_, fun _ => number_natural n⟩
    | negative n => exact ⟨_, fun _ => number_minus n⟩
    | real x =>
      obtain ⟨y, hy⟩ := exists_number_real h
      exact ⟨_, hy⟩
  obtain ⟨m, hm⟩ := hread
  have halone := hm [] trivial
  rw [List.append_nil] at halone
  rw [JsonNumber.reread, halone]
  exact hm

theorem reread_eq {n m : JsonNumber} (h : ∀ rest, Stops rest → number (n.render ++ rest) = .ok (m, rest)) : n.reread = m := by
  have halone := h [] trivial
  rw [List.append_nil] at halone
  rw [JsonNumber.reread, halone]

theorem reread_natural (n : UInt64) : (JsonNumber.natural n).reread = .natural n := reread_eq fun _ => number_natural n

theorem reread_negative (n : Fin 0x8000000000000000) : (JsonNumber.negative n).reread = .negative n := reread_eq fun _ => number_minus n

theorem reread_real {x : Binary64} (hfinite : x.isFinite = true) : (JsonNumber.real x).reread = .real x.reread := by
  obtain ⟨y, hy⟩ := exists_number_real hfinite
  rw [Binary64.reread, reread_eq hy]

theorem render_number {n : JsonNumber} (h : n.IsWritable) : ∃ c cs, n.render = c :: cs ∧ startsNumber c = true := by
  have halone := number_rendered h [] trivial
  rw [List.append_nil] at halone
  exact startsNumber_of_number halone

theorem startsNumber_iff {c : Char} : startsNumber c = true ↔ c.toNat = 45 ∨ 48 ≤ c.toNat ∧ c.toNat ≤ 57 := by
  rw [startsNumber, Bool.or_eq_true, beq_iff_eq, isDigit_iff]
  constructor
  · rintro (rfl | hdigit)
    · exact .inl rfl
    · exact .inr hdigit
  · rintro (hminus | hdigit)
    · exact .inl (Char.ext (UInt32.ext hminus))
    · exact .inr hdigit

section

variable {other : Char → JsonReader Json}

theorem scalarOr_number {n : JsonNumber} (h : n.IsWritable) :
    Reads (scalarOr other) n.render (.number n.reread) := by
  intro rest hrest
  obtain ⟨c, cs, hcons, hc⟩ := render_number h
  have hread := map_of_ok (number_rendered h rest hrest) Json.number
  rw [hcons, List.cons_append] at hread ⊢
  have hne (letter : Char) (hletter : startsNumber letter = false) : c ≠ letter := by
    rintro rfl
    rw [hc] at hletter
    cases hletter
  simp only [scalarOr, get_bind, hne 'n' rfl, hne 't' rfl, hne 'f' rfl, hc, if_false, if_true]
  exact hread

theorem scalarOr_string (s : String) : Reads (scalarOr other) (Json.renderString s) (.string s) := by
  intro rest _
  have hread := map_of_ok (string_rendered s rest) Json.string
  rw [Json.renderString, List.cons_append, List.cons_append] at hread ⊢
  simp only [scalarOr, get_bind, show startsNumber '"' = false from rfl, show ('"' : Char) ≠ 'n' by decide,
    show ('"' : Char) ≠ 't' by decide, show ('"' : Char) ≠ 'f' by decide, Bool.false_eq_true, if_false, if_true]
  exact hread

theorem scalarOr_word (rest : List Char) :
    scalarOr other (['n', 'u', 'l', 'l'] ++ rest) = .ok (.null, rest) ∧
      scalarOr other (['t', 'r', 'u', 'e'] ++ rest) = .ok (.bool true, rest) ∧
      scalarOr other (['f', 'a', 'l', 's', 'e'] ++ rest) = .ok (.bool false, rest) := ⟨rfl, rfl, rfl⟩

theorem scalarOr_bracket {c : Char} (hc : c = '[' ∨ c = '\x7b') (rest : List Char) : scalarOr other (c :: rest) = other c (c :: rest) := by
  rcases hc with rfl | rfl <;> rfl

end

/-! ## Values -/

theorem startsValue_render {v : Json} (h : v.IsWritable) : StartsValue v.render := by
  cases v with
  | null => exact ⟨_, _, rfl, rfl, by decide⟩
  | bool b => cases b <;> exact ⟨_, _, rfl, rfl, by decide⟩
  | number n =>
    obtain ⟨c, cs, hcons, hc⟩ := render_number h
    have hbounds := startsNumber_iff.mp hc
    refine ⟨c, cs, hcons, ?_, ?_⟩
    · cases hblank : isJsonBlank c with
      | false => rfl
      | true =>
        simp only [isJsonBlank, Bool.or_eq_true, beq_iff_eq] at hblank
        rcases hblank with ((rfl | rfl) | rfl) | rfl <;> simp at hbounds
    · rintro rfl
      simp at hbounds
  | string s => exact ⟨_, _, rfl, rfl, by decide⟩
  | array items => exact ⟨_, _, rfl, rfl, by decide⟩
  | object members => exact ⟨_, _, rfl, rfl, by decide⟩

theorem value_scalar {text : List Char} {v : Json} (hstarts : StartsValue text) (h : ∀ other, Reads (scalarOr other) text v)
    (d : Nat) : Reads (value d) text v := by
  intro rest hrest
  obtain ⟨c, cs, hcons, hblank, -⟩ := hstarts
  have hskip : skipBlanks (text ++ rest) = .ok (⟨⟩, text ++ rest) := by
    rw [hcons]
    exact skipBlanks_cons hblank _
  cases d with
  | zero =>
    rw [value, bind_of_ok hskip]
    exact h _ rest hrest
  | succ d =>
    rw [value, bind_of_ok hskip]
    exact h _ rest hrest

/-- A value is read from its text, if lists and objects may be nested as deep as in it. -/
theorem value_rendered {v : Json} (hwritable : v.IsWritable) {d : Nat} (hdepth : v.depth ≤ d) : Reads (value d) v.render v.reread := by
  induction v using Json.nestedInduction generalizing d with
  | null => exact value_scalar (startsValue_render hwritable) (fun _ rest _ => (scalarOr_word rest).1) d
  | bool b =>
    cases b with
    | true => exact value_scalar (startsValue_render hwritable) (fun _ rest _ => (scalarOr_word rest).2.1) d
    | false => exact value_scalar (startsValue_render hwritable) (fun _ rest _ => (scalarOr_word rest).2.2) d
  | number n => exact value_scalar (startsValue_render hwritable) (fun _ => scalarOr_number hwritable) d
  | string s => exact value_scalar (startsValue_render hwritable) (fun _ => scalarOr_string s) d
  | array items ih =>
    intro rest _
    rw [Json.IsWritable, Json.allWritable_iff] at hwritable
    rw [Json.depth] at hdepth
    obtain ⟨d, rfl⟩ := Nat.exists_eq_add_one.mpr (lt_of_lt_of_le (Nat.succ_pos _) hdepth)
    have hitems : ∀ item ∈ items, Reads (value d) item.render item.reread ∧ StartsValue item.render := fun item hitem =>
      ⟨ih item hitem (hwritable item hitem) ((Json.depth_le_itemsDepth hitem).trans (Nat.le_of_succ_le_succ hdepth)),
        startsValue_render (hwritable item hitem)⟩
    have hread := map_of_ok (list_rendered hitems rest) Json.array
    rw [Json.render, Json.renderItems_eq, List.cons_append, List.cons_append, List.append_assoc, List.singleton_append, value,
      bind_of_ok (skipBlanks_cons rfl _), scalarOr_bracket (.inl rfl), if_pos rfl, hread, Json.reread, Json.rereadItems_eq_map]
  | object members ih =>
    intro rest _
    rw [Json.IsWritable, Json.membersWritable_iff] at hwritable
    rw [Json.depth] at hdepth
    obtain ⟨d, rfl⟩ := Nat.exists_eq_add_one.mpr (lt_of_lt_of_le (Nat.succ_pos _) hdepth)
    have hmembers : ∀ member ∈ members, Reads (value d) member.2.render member.2.reread := fun member hmember =>
      ih member hmember (hwritable member hmember) ((Json.depth_le_membersDepth hmember).trans (Nat.le_of_succ_le_succ hdepth))
    have hread := map_of_ok (object_rendered Prod.fst hmembers rest) fun ms => Json.object (Json.sortMembers ms)
    rw [Json.render, Json.renderMembers_eq, List.cons_append, List.cons_append, List.append_assoc, List.singleton_append, value,
      bind_of_ok (skipBlanks_cons rfl _), scalarOr_bracket (.inr rfl), if_neg (by decide), if_pos rfl]
    rw [Json.reread, Json.rereadMembers_eq_map]
    exact hread

end JsonReader

end LoadGenerator
