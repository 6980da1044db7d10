import Mathlib.Data.List.Induction

/-! Tumbling windows over a sequence: every item enters the open window, which is closed as soon as
it is full. Whatever windows are cut so, they tile the sequence. -/
namespace TelephoneBooth.Windows

variable {α : Type*}

structure Window (α : Type*) where
  closed : List (List α)
  filling : List α

namespace Window

def empty : Window α := ⟨[],[]⟩

def observe (size : Nat) (w : Window α) (item : α) : Window α :=
  if size ≤ w.filling.length + 1 then ⟨w.closed ++ [w.filling ++ [item]],[]⟩
  else ⟨w.closed,w.filling ++ [item]⟩

def finish (w : Window α) : List (List α) :=
  if w.filling = [] then w.closed else w.closed ++ [w.filling]

def filled (size : Nat) (items : List α) : Window α := items.foldl (observe size) empty

end Window

structure Tiles (size : Nat) (items : List α) (w : Window α) : Prop where
  whole : w.closed.flatten ++ w.filling = items
  full : ∀ window ∈ w.closed, window.length = size
  open_ : w.filling.length < size

variable {size : Nat}

theorem tilesEmpty (some_ : 0 < size) : Tiles size ([] : List α) .empty :=
  ⟨rfl,fun _ mem => (by cases mem),some_⟩

theorem observeTiles {items : List α} {w : Window α} (tiles : Tiles size items w) (item : α) :
    Tiles size (items ++ [item]) (w.observe size item) := by
  obtain ⟨whole,full,open_⟩ := tiles
  unfold Window.observe
  split
  · refine ⟨?_,fun window mem => ?_,by simp only [List.length_nil]; omega⟩
    · rw [← whole]
      simp
    · rcases List.mem_append.mp mem with before | last
      · exact full window before
      · obtain rfl := List.mem_singleton.mp last
        rw [List.length_append,List.length_singleton]
        omega
  · refine ⟨?_,full,?_⟩
    · rw [← whole]
      simp
    · rw [List.length_append,List.length_singleton]
      omega

theorem filledTiles (some_ : 0 < size) (items : List α) : Tiles size items (.filled size items) := by
  induction items using List.reverseRecOn with
  | nil => exact tilesEmpty some_
  | append_singleton items item ih =>
    rw [Window.filled,List.foldl_append]
    exact observeTiles ih item

end TelephoneBooth.Windows
