import LoadGenerator.Proofs.Json.Values

/-!
# Values that are nested too deep

Where a reader may open only so many lists and objects inside each other, a value with more of them is refused: the reader fails at the first bracket too many, and nothing around it goes on after a failure.
-/

namespace LoadGenerator.JsonReader

/-- The reader fails on the text, whatever follows it, unless that goes on with a number. -/
def Refuses {α : Type} (reader : JsonReader α) (text : List Char) : Prop :=
  ∀ rest, Stops rest → ∃ failure, reader (text ++ rest) = .error failure

section

variable {α β : Type} {reader : JsonReader α}

theorem bracketed_of_error {finish : List Char → Except ReadFailure Unit × List Char} {inside : JsonReader α} {open_ : Char}
    {s : List Char} (h : ∃ failure, inside s = .error failure) : ∃ failure, bracketed finish inside (open_ :: s) = .error failure := by
  obtain ⟨failure, hfailure⟩ := h
  rw [bracketed, List.drop_succ_cons, List.drop_zero, hfailure]
  cases failure with
  | placed problem left => exact ⟨_, rfl⟩
  | unplaced problem rest => exact ⟨_, rfl⟩

/-- Reading fails on a text that is refused, or later. -/
private theorem bind_refused {text rest : List Char} {a : α} {next : α → JsonReader β} (hrest : Stops rest)
    (htext : Reads reader text a ∨ Refuses reader text)
    (hnext : ¬ Refuses reader text → ∃ failure, next a rest = .error failure) :
    ∃ failure, (reader >>= next) (text ++ rest) = .error failure := by
  by_cases hrefuses : Refuses reader text
  · obtain ⟨failure, hfailure⟩ := hrefuses rest hrest
    exact ⟨failure, bind_of_error hfailure _⟩
  · rw [bind_of_ok (htext.resolve_right hrefuses rest hrest)]
    exact hnext hrefuses

private theorem bind_of_fails {s : List Char} (h : ∃ failure, reader s = .error failure) (next : α → JsonReader β) :
    ∃ failure, (reader >>= next) s = .error failure :=
  h.imp fun _ hfailure => bind_of_error hfailure next

variable {items : List β} {text : β → List Char} {value : β → α}

private theorem refused_later {item : β} (hsome : ∃ next ∈ item :: items, Refuses reader (text next))
    (hitem : ¬ Refuses reader (text item)) : ∃ next ∈ items, Refuses reader (text next) := by
  obtain ⟨next, hnext, hrefuses⟩ := hsome
  rcases List.mem_cons.mp hnext with rfl | hmem
  · exact absurd hrefuses hitem
  · exact ⟨next, hmem, hrefuses⟩

private theorem elements_refused
    (h : ∀ item ∈ items, (Reads reader (text item) (value item) ∨ Refuses reader (text item)) ∧ StartsValue (text item))
    (hsome : ∃ item ∈ items, Refuses reader (text item)) (fuel : Nat) (hfuel : items.length ≤ fuel) (rest : List Char) :
    ∃ failure, elements reader fuel false ((items.map text).flatMap (fun next => ',' :: next) ++ ']' :: rest) = .error failure := by
  induction items generalizing fuel with
  | nil => simp at hsome
  | cons item items ih =>
    obtain ⟨fuel, rfl⟩ := Nat.exists_eq_add_one.mpr (lt_of_lt_of_le (Nat.succ_pos _) hfuel)
    obtain ⟨hitem, hstarts⟩ := h item (by simp)
    rw [List.map_cons, List.flatMap_cons, List.append_assoc, List.cons_append, elements, bind_of_ok (nextElement_comma hstarts _), if_pos rfl]
    refine bind_refused (stops_flatMap_comma _ (stops_bracket rest)) hitem fun hrefuses => bind_of_fails ?_ _
    exact ih (fun next hnext => h next (by simp [hnext])) (refused_later hsome hrefuses) fuel (by simpa using hfuel)

theorem list_refused
    (h : ∀ item ∈ items, (Reads reader (text item) (value item) ∨ Refuses reader (text item)) ∧ StartsValue (text item))
    (hsome : ∃ item ∈ items, Refuses reader (text item)) (rest : List Char) :
    ∃ failure, list reader ('[' :: (Json.commaSeparated (items.map text) ++ ']' :: rest)) = .error failure := by
  refine bracketed_of_error ?_
  rw [get_bind]
  cases items with
  | nil => simp at hsome
  | cons item items =>
    have hlength := length_le_commaSeparated ((item :: items).map text) fun other hother => by
      obtain ⟨source, hsource, rfl⟩ := List.mem_map.mp hother
      obtain ⟨c, cs, hcons, -⟩ := (h source hsource).2
      rw [hcons]
      simp
    obtain ⟨hitem, hstarts⟩ := h item (by simp)
    have hfuel : items.length ≤ (Json.commaSeparated ((item :: items).map text) ++ ']' :: rest).length := by
      rw [List.length_map, List.length_cons] at hlength
      rw [List.length_append]
      omega
    rw [elements]
    rw [List.map_cons, Json.commaSeparated, List.append_assoc] at hfuel ⊢
    rw [bind_of_ok (nextElement_first hstarts _), if_pos rfl]
    refine bind_refused (stops_flatMap_comma _ (stops_bracket rest)) hitem fun hrefuses => bind_of_fails ?_ _
    exact elements_refused (fun next hnext => h next (List.mem_cons_of_mem item hnext)) (refused_later hsome hrefuses) _ hfuel rest

variable (key : β → String)

private theorem members_refused (h : ∀ item ∈ items, Reads reader (text item) (value item) ∨ Refuses reader (text item))
    (hsome : ∃ item ∈ items, Refuses reader (text item)) (fuel : Nat) (hfuel : items.length ≤ fuel) (rest : List Char) :
    ∃ failure, members reader fuel false
      ((items.map fun item => Json.renderString (key item) ++ ':' :: text item).flatMap (fun next => ',' :: next) ++ '\x7d' :: rest) =
      .error failure := by
  induction items generalizing fuel with
  | nil => simp at hsome
  | cons item items ih =>
    obtain ⟨fuel, rfl⟩ := Nat.exists_eq_add_one.mpr (lt_of_lt_of_le (Nat.succ_pos _) hfuel)
    rw [List.map_cons, List.flatMap_cons, List.append_assoc, List.cons_append, List.append_assoc, List.cons_append, members,
      bind_of_ok (nextKey_comma _ _)]
    dsimp only
    rw [bind_of_ok (colon_cons _)]
    refine bind_refused (stops_flatMap_comma _ (stops_brace rest)) (h item (by simp)) fun hrefuses => bind_of_fails ?_ _
    exact ih (fun next hnext => h next (by simp [hnext])) (refused_later hsome hrefuses) fuel (by simpa using hfuel)

theorem object_refused (h : ∀ item ∈ items, Reads reader (text item) (value item) ∨ Refuses reader (text item))
    (hsome : ∃ item ∈ items, Refuses reader (text item)) (rest : List Char) :
    ∃ failure, object reader
      ('\x7b' :: (Json.commaSeparated (items.map fun item => Json.renderString (key item) ++ ':' :: text item) ++ '\x7d' :: rest)) =
      .error failure := by
  refine bracketed_of_error ?_
  rw [get_bind]
  cases items with
  | nil => simp at hsome
  | cons item items =>
    have hlength := length_le_commaSeparated ((item :: items).map fun item => Json.renderString (key item) ++ ':' :: text item)
      fun other hother => by
        obtain ⟨source, -, rfl⟩ := List.mem_map.mp hother
        simp [Json.renderString]
    have hfuel : items.length ≤
        (Json.commaSeparated ((item :: items).map fun item => Json.renderString (key item) ++ ':' :: text item) ++ '\x7d' :: rest).length := by
      rw [List.length_map, List.length_cons] at hlength
      rw [List.length_append]
      omega
    rw [members]
    rw [List.map_cons, Json.commaSeparated, List.append_assoc, List.append_assoc, List.cons_append] at hfuel ⊢
    rw [bind_of_ok (nextKey_first _ _)]
    dsimp only
    rw [bind_of_ok (colon_cons _)]
    refine bind_refused (stops_flatMap_comma _ (stops_brace rest)) (h item (by simp)) fun hrefuses => bind_of_fails ?_ _
    exact members_refused key (fun next hnext => h next (List.mem_cons_of_mem item hnext)) (refused_later hsome hrefuses) _ hfuel rest

end

theorem value_too_deep {v : Json} (hwritable : v.IsWritable) {d : Nat} (hdepth : d < v.depth) : Refuses (value d) v.render := by
  induction v using Json.nestedInduction generalizing d with
  | null => exact absurd hdepth (Nat.not_lt_zero d)
  | bool b => exact absurd hdepth (Nat.not_lt_zero d)
  | number n => exact absurd hdepth (Nat.not_lt_zero d)
  | string s => exact absurd hdepth (Nat.not_lt_zero d)
  | array items ih =>
    intro rest _
    rw [Json.IsWritable, Json.allWritable_iff] at hwritable
    rw [Json.depth, Nat.lt_succ_iff] at hdepth
    rw [Json.render, Json.renderItems_eq, List.cons_append, List.cons_append, List.append_assoc, List.singleton_append]
    cases d with
    | zero => exact ⟨_, rfl⟩
    | succ d =>
      have hitems : ∀ item ∈ items, (Reads (value d) item.render item.reread ∨ Refuses (value d) item.render) ∧ StartsValue item.render := by
        intro item hitem
        refine ⟨?_, startsValue_render (hwritable item hitem)⟩
        rcases Nat.lt_or_ge d item.depth with hdeep | hshallow
        · exact .inr (ih item hitem (hwritable item hitem) hdeep)
        · exact .inl (value_rendered (hwritable item hitem) hshallow)
      have hsome : ∃ item ∈ items, Refuses (value d) item.render := by
        obtain ⟨item, hitem, hdeep⟩ := Json.exists_of_lt_itemsDepth hdepth
        exact ⟨item, hitem, ih item hitem (hwritable item hitem) hdeep⟩
      rw [value, bind_of_ok (skipBlanks_cons rfl _), scalarOr_bracket (.inl rfl), if_pos rfl, map_eq_pure_bind]
      exact bind_of_fails (list_refused hitems hsome rest) _
  | object members ih =>
    intro rest _
    rw [Json.IsWritable, Json.membersWritable_iff] at hwritable
    rw [Json.depth, Nat.lt_succ_iff] at hdepth
    rw [Json.render, Json.renderMembers_eq, List.cons_append, List.cons_append, List.append_assoc, List.singleton_append]
    cases d with
    | zero => exact ⟨_, rfl⟩
    | succ d =>
      have hmembers : ∀ member ∈ members, Reads (value d) member.2.render member.2.reread ∨ Refuses (value d) member.2.render := by
        intro member hmember
        rcases Nat.lt_or_ge d member.2.depth with hdeep | hshallow
        · exact .inr (ih member hmember (hwritable member hmember) hdeep)
        · exact .inl (value_rendered (hwritable member hmember) hshallow)
      have hsome : ∃ member ∈ members, Refuses (value d) member.2.render := by
        obtain ⟨member, hmember, hdeep⟩ := Json.exists_of_lt_membersDepth hdepth
        exact ⟨member, hmember, ih member hmember (hwritable member hmember) hdeep⟩
      rw [value, bind_of_ok (skipBlanks_cons rfl _), scalarOr_bracket (.inr rfl), if_neg (by decide), if_pos rfl, map_eq_pure_bind]
      exact bind_of_fails (object_refused Prod.fst hmembers hsome rest) _

end LoadGenerator.JsonReader
