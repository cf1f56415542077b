import Mathlib.Algebra.Ring.Nat
import Mathlib.Data.List.Nodup
import Mathlib.Tactic.Common

/-! # Batches sent one behind the other

A scan sends a batch of messages for each entry of a table. Each message carries the entry
that it is sent for, so that what arrives can be told apart. -/

namespace SC04Monitor.Lib.Batches

variable {α β : Type*}

/-- The messages of the scan, each with its entry. -/
def tagged (batch : α → List β) (l : List α) : List (α × β) :=
  l.flatMap fun a => (batch a).map (Prod.mk a)

variable {batch : α → List β} {l : List α} {a : α} {n : Nat}

theorem tagged_snd : (tagged batch l).map Prod.snd = l.flatMap batch := by
  unfold tagged
  rw [List.map_flatMap]
  refine List.flatMap_congr fun a _ => ?_
  rw [List.map_map]
  exact List.map_id _

end SC04Monitor.Lib.Batches
