import Mathlib.Logic.Basic

/-!
# Cells of a shared state

Objects that live behind pointers are cells of one state: each is read and
replaced on its own, and replacing one leaves the cells that are apart from it
alone.
-/

namespace OssSdk
namespace Foundation

structure Cell (state value : Type) where
  get : state -> value
  set : value -> state -> state
  get_set : forall v s, get (set v s) = v
  set_set : forall v v' s, set v (set v' s) = set v s
  set_get : forall s, set (get s) s = s

namespace Cell

variable {state value value' : Type}

attribute [simp] get_set set_set set_get

def modify (c : Cell state value) (f : value -> value) (s : state) : state :=
  c.set (f (c.get s)) s

@[simp] theorem get_modify (c : Cell state value) (f : value -> value) (s : state) :
    c.get (c.modify f s) = f (c.get s) := by
  simp [modify]

/-- Two cells whose contents do not overlap. -/
structure Apart (c : Cell state value) (d : Cell state value') : Prop where
  get_set_left : forall v s, d.get (c.set v s) = d.get s
  get_set_right : forall v s, c.get (d.set v s) = c.get s

/-- The whole state as one cell. -/
def whole : Cell state state where
  get s := s
  set v _ := v
  get_set _ _ := rfl
  set_set _ _ _ := rfl
  set_get _ := rfl

def fst : Cell (value × value') value where
  get s := s.1
  set v s := (v, s.2)
  get_set _ _ := rfl
  set_set _ _ _ := rfl
  set_get _ := rfl

def snd : Cell (value × value') value' where
  get s := s.2
  set v s := (s.1, v)
  get_set _ _ := rfl
  set_set _ _ _ := rfl
  set_get _ := rfl

theorem fst_apart_snd :
    (fst : Cell (value × value') value).Apart (snd : Cell (value × value') value') :=
  ⟨fun _ _ => rfl, fun _ _ => rfl⟩

end Cell
end Foundation
end OssSdk
