import Mathlib.Data.List.Infix
import Mathlib.Tactic.Common

/-!
# Collecting messages

Messages of several senders arrive at one place, mixed in any way, some of them never, but those of each
sender in the order in which it sent them. If the messages of a sender carry a mark that no others
carry, then the messages with this mark are what arrived of the sender.
-/

namespace Rmbtd.Collect

variable {ι μ κ : Type} [DecidableEq ι] [DecidableEq κ]

/-- What arrived of a sender. -/
def ofSender (i : ι) (arrived : List (ι × μ)) : List μ := (arrived.filter fun a => a.1 = i).map Prod.snd

/-- Of what every sender sent, some arrived, in its order. -/
def Mixed (sent : ι → List μ) (arrived : List (ι × μ)) : Prop :=
  ∀ i, (ofSender i arrived).Sublist (sent i)

def carrying (mark : μ → Option κ) (k : κ) (received : List μ) : List μ :=
  received.filter fun m => mark m = some k

variable {mark : μ → Option κ} {k : κ} {i : ι} {sent : ι → List μ} {arrived : List (ι × μ)}

omit [DecidableEq κ] in
theorem Mixed.mem (h : Mixed sent arrived) {a : ι × μ} (ha : a ∈ arrived) : a.2 ∈ sent a.1 := by
  apply (h a.1).subset
  apply List.mem_map_of_mem
  exact List.mem_filter.mpr ⟨ha,decide_eq_true rfl⟩

/-- If a mark tells the sender, the messages that carry it are what arrived of the sender. -/
theorem carrying_eq_ofSender (hmixed : Mixed sent arrived) (h : ∀ j, ∀ m ∈ sent j, mark m = some k ↔ j = i) :
    carrying mark k (arrived.map Prod.snd) = ofSender i arrived := by
  rw [carrying,ofSender,List.filter_map]
  congr 1
  apply List.filter_congr
  intro a ha
  exact decide_eq_decide.mpr (h a.1 a.2 (hmixed.mem ha))

end Rmbtd.Collect
