/-! Stop flags. A flag asks a running solve to stop. Flags are shared: whoever holds the
handle of one sees every write to it. The first flag of a store is the one that all
sessions share unless they are given another. -/

namespace SolverBridge

/-- Names a flag of a store. -/
structure StopHandle where
  index : Nat
  deriving DecidableEq, Repr

/-- The flags in use. -/
structure StopFlags where
  flags : List Bool
  deriving DecidableEq, Repr

namespace StopFlags

/-- The shared flag, down. -/
def initial : StopFlags := ⟨[false]⟩

def shared : StopHandle := ⟨0⟩

/-- A new flag, down, with its handle. -/
def fresh (s : StopFlags) : StopHandle × StopFlags := (⟨s.flags.length⟩, ⟨s.flags ++ [false]⟩)

def isStopped (s : StopFlags) (h : StopHandle) : Bool := s.flags[h.index]?.getD false

def write (s : StopFlags) (h : StopHandle) (b : Bool) : StopFlags := ⟨s.flags.set h.index b⟩

def stop (s : StopFlags) (h : StopHandle) : StopFlags := s.write h true

def reset (s : StopFlags) (h : StopHandle) : StopFlags := s.write h false

/-- The handle names a flag of the store. -/
def Holds (s : StopFlags) (h : StopHandle) : Prop := h.index < s.flags.length

theorem isStopped_write {s : StopFlags} {h : StopHandle} (hs : s.Holds h) (b : Bool) :
    (s.write h b).isStopped h = b := by
  simp [write, isStopped, List.getElem?_set_self hs]

theorem isStopped_write_of_ne {s : StopFlags} {h k : StopHandle} (hk : h ≠ k) (b : Bool) :
    (s.write h b).isStopped k = s.isStopped k := by
  have : h.index ≠ k.index := fun e => hk (by cases h; cases k; simp_all)
  simp [write, isStopped, List.getElem?_set_ne this]

theorem isStopped_reset (s : StopFlags) (h : StopHandle) : (s.reset h).isStopped h = false := by
  by_cases hs : s.Holds h
  · exact isStopped_write hs false
  · have same : s.flags.set h.index false = s.flags :=
      List.set_eq_of_length_le (Nat.le_of_not_lt hs)
    simp [reset, write, isStopped, same, List.getElem?_eq_none (Nat.le_of_not_lt hs)]

end StopFlags

end SolverBridge
