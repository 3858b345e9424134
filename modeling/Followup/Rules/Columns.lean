/-! Named columns: values under names that are all different, in the order in which the names came
up first. The order shows in what is printed and means nothing else. -/

namespace Followup

structure Columns (α : Type) where
  entries : List (String × α)
  distinct : (entries.map Prod.fst).Nodup

namespace Columns

variable {α : Type}

def empty : Columns α := ⟨[], by simp⟩

def names (c : Columns α) : List String := c.entries.map Prod.fst

def size (c : Columns α) : Nat := c.entries.length

def isEmpty (c : Columns α) : Bool := c.entries.isEmpty

def get? (c : Columns α) (name : String) : Option α := c.entries.lookup name

def putIn (name : String) (value : α) : List (String × α) → List (String × α)
  | [] => [(name, value)]
  | (n, v) :: rest => if n = name then (name, value) :: rest else (n, v) :: putIn name value rest

theorem names_putIn (name : String) (value : α) (l : List (String × α)) :
    (putIn name value l).map Prod.fst =
      if name ∈ l.map Prod.fst then l.map Prod.fst else l.map Prod.fst ++ [name] := by
  induction l with
  | nil => simp [putIn]
  | cons e rest ih =>
    obtain ⟨n, v⟩ := e
    simp only [putIn]
    by_cases h : n = name
    · simp [h]
    · have h' : ¬ name = n := fun e => h e.symm
      simp only [h, if_false, List.map_cons, ih, List.mem_cons, h', false_or]
      split <;> simp

def put (c : Columns α) (name : String) (value : α) : Columns α where
  entries := putIn name value c.entries
  distinct := by
    rw [names_putIn]
    split
    · exact c.distinct
    · next h => exact List.nodup_append.2 ⟨c.distinct, by simp, by
        intro a ha b hb hab
        simp only [List.mem_singleton] at hb
        exact h (hb ▸ hab ▸ ha)⟩

def ofList (l : List (String × α)) : Columns α :=
  l.foldl (fun c (name, value) => c.put name value) empty

def same [DecidableEq α] (a b : Columns α) : Bool :=
  a.size == b.size && a.entries.all fun (name, value) => decide (b.get? name = some value)

end Columns

end Followup
