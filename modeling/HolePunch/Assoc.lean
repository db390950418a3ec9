/-!
# Keys with values

Lists of keys with values, in the order in which the keys came, each once. `lookup_put` says what a
look-up finds after a value was put.
-/

namespace HolePunch.Assoc

variable {α : Type}

/-- The entries with a value for a key, in the place of an old one or at the end. -/
def put (key : String) (value : α) : List (String × α) → List (String × α)
  | [] => [(key, value)]
  | (k, v) :: rest => if k = key then (key, value) :: rest else (k, v) :: put key value rest

/-- The entries without a key. -/
def erase (key : String) (entries : List (String × α)) : List (String × α) :=
  entries.filter (·.1 != key)

theorem lookup_cons (key other : String) (value : α) (rest : List (String × α)) :
    List.lookup other ((key, value) :: rest) =
      if other = key then some value else rest.lookup other := by
  by_cases same : other = key
  · simp [same]
  · simp [List.lookup_cons, same, beq_false_of_ne same]

theorem lookup_put (key other : String) (value : α) (entries : List (String × α)) :
    (put key value entries).lookup other =
      if other = key then some value else entries.lookup other := by
  induction entries with
  | nil => simp [put, lookup_cons]
  | cons entry rest ih =>
    obtain ⟨k, v⟩ := entry
    by_cases same : k = key
    · subst same
      by_cases h : other = k <;> simp [put, lookup_cons, h]
    · by_cases h : other = k
      · subst h
        simp [put, same]
      · simp [put, lookup_cons, same, h, ih]

theorem lookup_of_not_mem {key : String} {entries : List (String × α)}
    (new : key ∉ entries.map Prod.fst) : entries.lookup key = none := by
  rw [List.lookup_eq_none_iff]
  intro entry member
  rw [bne_iff_ne]
  rintro rfl
  exact new (List.mem_map_of_mem member)

theorem not_mem_of_lookup {key : String} {entries : List (String × α)}
    (absent : entries.lookup key = none) : key ∉ entries.map Prod.fst := by
  intro member
  obtain ⟨entry, inside, rfl⟩ := List.mem_map.mp member
  have other := List.lookup_eq_none_iff.mp absent entry inside
  exact bne_iff_ne.mp other rfl

theorem mem_of_lookup {key : String} {value : α} {entries : List (String × α)}
    (found : entries.lookup key = some value) : (key, value) ∈ entries := by
  obtain ⟨before, after, rfl, -⟩ := List.lookup_eq_some_iff.mp found
  exact List.mem_append_right before List.mem_cons_self

theorem put_of_not_mem {key : String} {entries : List (String × α)}
    (new : key ∉ entries.map Prod.fst) (value : α) :
    put key value entries = entries ++ [(key, value)] := by
  induction entries with
  | nil => rfl
  | cons entry rest ih =>
    rw [List.map_cons, List.mem_cons, not_or] at new
    rw [put, if_neg (Ne.symm new.1), ih new.2]
    rfl

theorem map_fst_put_of_mem {key : String} {entries : List (String × α)}
    (member : key ∈ entries.map Prod.fst) (value : α) :
    (put key value entries).map Prod.fst = entries.map Prod.fst := by
  induction entries with
  | nil => cases member
  | cons entry rest ih =>
    rw [put]
    split
    · next same => rw [List.map_cons, List.map_cons, same]
    · next other =>
      rw [List.map_cons, List.mem_cons] at member
      have later := member.resolve_left (Ne.symm other)
      rw [List.map_cons, List.map_cons, ih later]

theorem mem_put {key : String} {value : α} {entries : List (String × α)} {entry : String × α}
    (member : entry ∈ put key value entries) : entry = (key, value) ∨ entry ∈ entries := by
  induction entries with
  | nil => exact .inl (List.mem_singleton.mp member)
  | cons first rest ih =>
    rw [put] at member
    split at member
    · rcases List.mem_cons.mp member with same | later
      · exact .inl same
      · exact .inr (List.mem_cons_of_mem first later)
    · rcases List.mem_cons.mp member with same | later
      · exact .inr (same ▸ List.mem_cons_self)
      · exact (ih later).imp_right (List.mem_cons_of_mem first)

end HolePunch.Assoc
