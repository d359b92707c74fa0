import Relux.Descent
import Relux.Sol.Vm
import Relux.Sol.Effect

/-! `heap_display` ends unless the value leads back to itself. -/

namespace Relux

namespace Sol

def HeapObject.shown : HeapObject → List Word
  | .list items => items
  | .map pairs => pairs.map Prod.snd
  | _ => []

def Shows (heap : List HeapObject) (idx part : Nat) : Prop :=
  ∃ o, heap[idx]? = some o ∧ ∃ r ∈ o.shown, r.toNat = part

variable {heap : List HeapObject}

theorem Shows.lt {idx part : Nat} (h : Shows heap idx part) : idx < heap.length := by
  obtain ⟨o, ho, _⟩ := h
  exact (List.getElem?_eq_some_iff.mp ho).1

end Sol

end Relux

/-! A run ends within its fuel, unless an instruction of it panics: an overflow that the
profile checks, or a value that is displayed and leads back to itself. -/

namespace Relux

namespace Sol

namespace VM

variable {host : Host} {vm : VM} {inst : Inst}

@[simp] theorem pop_heap : vm.pop.2.heap = vm.heap := by
  unfold pop
  cases vm.stack.getLast? <;> rfl

variable {vm' : VM}

variable {f : Word → Word → Word}

end VM

end Sol

end Relux
