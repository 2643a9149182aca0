/-!
Sets of names as lists in ascending order, and tables from names.
-/

namespace FirstMatch.Names

/-- Adds a name to an ascending list that may already hold it. -/
def insert (name : String) : List String → List String
  | [] => [name]
  | n :: ns => if name < n then name :: n :: ns else if name = n then n :: ns else n :: insert name ns

/-- The names in ascending order, each once. -/
def ofList (names : List String) : List String :=
  names.foldl (fun sorted name => insert name sorted) []

/-- The names of the first list that the second lacks, in ascending order. -/
def without (names known : List String) : List String :=
  (ofList names).filter fun n => !known.contains n

theorem mem_insert {name m : String} {ns : List String} :
    m ∈ insert name ns ↔ m = name ∨ m ∈ ns := by
  induction ns with
  | nil => simp [insert]
  | cons n ns ih =>
    unfold insert
    split
    · simp
    · split
      · rename_i h
        simp [h]
      · simp [ih]
        constructor
        · rintro (h | h | h) <;> simp [h]
        · rintro (h | h | h) <;> simp [h]

theorem mem_ofList {m : String} {names : List String} : m ∈ ofList names ↔ m ∈ names := by
  suffices h : ∀ sorted, m ∈ names.foldl (fun sorted name => insert name sorted) sorted ↔
      m ∈ names ∨ m ∈ sorted by
    simpa [ofList] using h []
  induction names with
  | nil => simp
  | cons n ns ih =>
    intro sorted
    simp [ih, mem_insert]
    constructor
    · rintro (h | h | h) <;> simp [h]
    · rintro ((h | h) | h) <;> simp [h]

theorem pairwise_insert {name : String} {ns : List String} (h : ns.Pairwise (· < ·)) :
    (insert name ns).Pairwise (· < ·) := by
  induction ns with
  | nil => simp [insert]
  | cons n ns ih =>
    obtain ⟨hn, hs⟩ := List.pairwise_cons.1 h
    unfold insert
    split
    · rename_i hlt
      exact List.pairwise_cons.2 ⟨fun m hm => by
        rcases List.mem_cons.1 hm with rfl | hm
        · exact hlt
        · exact String.lt_trans hlt (hn m hm), h⟩
    · split
      · exact h
      · rename_i hle hne
        refine List.pairwise_cons.2 ⟨fun m hm => ?_, ih hs⟩
        rcases mem_insert.1 hm with rfl | hm
        · exact String.not_le.1 fun hge => hne (String.le_antisymm hge (String.not_lt.1 hle))
        · exact hn m hm

/-- The names are in ascending order, and none occurs twice. -/
theorem pairwise_ofList (names : List String) : (ofList names).Pairwise (· < ·) := by
  suffices h : ∀ sorted : List String, sorted.Pairwise (· < ·) →
      (names.foldl (fun sorted name => insert name sorted) sorted).Pairwise (· < ·) from
    h [] .nil
  induction names with
  | nil => exact fun _ h => h
  | cons n ns ih => exact fun sorted h => ih _ (pairwise_insert h)

theorem mem_without {m : String} {names known : List String} :
    m ∈ without names known ↔ m ∈ names ∧ m ∉ known := by
  simp [without, mem_ofList]

/-- Sets the entry of a name in a table. -/
def set {α : Type} (table : List (String × α)) (name : String) (a : α) : List (String × α) :=
  match table with
  | [] => [(name, a)]
  | (n, b) :: rest => if n = name then (n, a) :: rest else (n, b) :: set rest name a

end FirstMatch.Names
