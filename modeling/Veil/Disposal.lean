/-! What becomes of the packet that an element is given: it is killed, or the element returns it.
Every allocation succeeds. -/

namespace Veil

inductive Returned (π : Type) where
  | nothing
  | input (packet : π)
  | other (packet : π)
deriving DecidableEq

/-- How often the input is killed, and what is returned. -/
structure Disposal (π : Type) where
  kills : Nat
  returned : Returned π
deriving DecidableEq

def Returned.isInput {π : Type} : Returned π → Bool
  | input _ => true
  | nothing | other _ => false

namespace Disposal

variable {π : Type}

def dropped : Disposal π := ⟨1, .nothing⟩

def replaced (packet : π) : Disposal π := ⟨1, .other packet⟩

def handedOn (packet : π) : Disposal π := ⟨0, .input packet⟩

def packet (disposal : Disposal π) : Option π :=
  match disposal.returned with
  | .nothing => none
  | .input packet | .other packet => some packet

@[simp] theorem packet_dropped : (dropped : Disposal π).packet = none := rfl

@[simp] theorem packet_replaced (packet : π) : (replaced packet).packet = some packet := rfl

@[simp] theorem packet_handedOn (packet : π) : (handedOn packet).packet = some packet := rfl

/-- The input is killed and not returned, or returned and not killed. -/
def Once (disposal : Disposal π) : Prop :=
  (disposal.kills = 1 ∧ disposal.returned.isInput = false) ∨
    (disposal.kills = 0 ∧ disposal.returned.isInput = true)

@[simp] theorem once_dropped : (dropped : Disposal π).Once := Or.inl ⟨rfl, rfl⟩

@[simp] theorem once_replaced (packet : π) : (replaced packet).Once := Or.inl ⟨rfl, rfl⟩

@[simp] theorem once_handedOn (packet : π) : (handedOn packet).Once := Or.inr ⟨rfl, rfl⟩

theorem once_input_iff (kills : Nat) (packet : π) :
    (⟨kills, .input packet⟩ : Disposal π).Once ↔ kills = 0 := by
  constructor
  · rintro (⟨-, other⟩ | ⟨none, -⟩)
    · cases other
    · exact none
  · exact fun none => Or.inr ⟨none, rfl⟩

end Disposal

end Veil
