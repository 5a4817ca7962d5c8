import OssSdk.Foundation.Decimal
import OssSdk.Io.ContentImpl

/-!
# Observers of an upload

A tee hands what is read from a body on to its observers.  All of the sources of a tee
share them, so that they are reset when the body is read from its beginning again.
-/

namespace OssSdk
namespace Internal

open Foundation
open Utils

variable {κ σ : Type}

/-!
# The observers
-/

/-- What a `ProgressObserver` keeps, with the calls of its callback so far. -/
structure ProgressObserverState where
  total : Int
  written : Nat
  lastWritten : Nat
  reports : List (Nat × Nat × Int)
deriving DecidableEq

namespace ProgressObserverState

def init (total : Int) : ProgressObserverState := ⟨total, 0, 0, []⟩

def data (count : Nat) (s : ProgressObserverState) : ProgressObserverState :=
  let written := s.written + count
  if s.lastWritten < written then
    { s with written := written, reports := s.reports ++ [(count, written, s.total)] }
  else { s with written := written }

def reset (s : ProgressObserverState) : ProgressObserverState :=
  { s with lastWritten := s.written, written := 0 }

end ProgressObserverState

def ProgressObserver (cell : Cell σ ProgressObserverState) : StreamObserver σ where
  data buffer := cell.modify (ProgressObserverState.data buffer.length)
  reset := cell.modify ProgressObserverState.reset

structure CRC64ObserverState where
  init : BitVec 64
  value : BitVec 64
deriving DecidableEq

namespace CRC64ObserverState

def data (buffer : ByteString) (s : CRC64ObserverState) : CRC64ObserverState :=
  { s with value := CalcCRC64 s.value buffer }

def reset (s : CRC64ObserverState) : CRC64ObserverState := { s with value := s.init }

def crcAsString (s : CRC64ObserverState) : ByteString := toDecimal s.value.toNat

end CRC64ObserverState

def CRC64Observer (cell : Cell σ CRC64ObserverState) : StreamObserver σ where
  data buffer := cell.modify (CRC64ObserverState.data buffer)
  reset := cell.modify CRC64ObserverState.reset

/-!
# The tee
-/

/-- What an observer may be told. -/
inductive Observation where
  | data (buffer : ByteString)
  | reset
deriving DecidableEq

/-- All of the observers in turn. -/
def observe (sinks : List (StreamObserver σ)) (w : σ) : Observation -> σ
  | .data buffer => sinks.foldl (fun w sink => sink.data buffer w) w
  | .reset => sinks.foldl (fun w sink => sink.reset w) w

/-- The content and its sources, what their observers keep, and whether it has none yet. -/
structure TeeState (κ σ : Type) where
  source : κ
  observers : σ
  first : Bool

/-- The observers hear of every read, of one that has given nothing too. -/
def TeeByteSource (source : ByteSource κ) (sinks : List (StreamObserver σ)) :
    ByteSource (TeeState κ σ) where
  onRead count t :=
    let (buffer, k) := source.read count t.source
    (buffer, { t with source := k, observers := observe sinks t.observers (.data buffer) })
  iostate t := source.iostate t.source
  onRead_le count t := source.onRead_le count t.source

/-- The observers that are there. -/
def spanObserver (sinks : List (Option (StreamObserver σ))) : List (StreamObserver σ) :=
  sinks.filterMap id

def TeeByteContent (content : ContentImpl κ) (sinks : List (Option (StreamObserver σ))) :
    ContentImpl (TeeState κ σ) where
  length t := content.length t.source
  isOneShot t := content.isOneShot t.source
  source := TeeByteSource content.source (spanObserver sinks)
  spanSource t :=
    let observers :=
      if t.first then t.observers else observe (spanObserver sinks) t.observers .reset
    (content.spanSource t.source).map fun k =>
      { source := k, observers := observers, first := false }

/-- A tee that has just been made. -/
def TeeState.made (k : κ) (observers : σ) : TeeState κ σ := ⟨k, observers, true⟩

/-- What the observers hear in attempts with reads of these sizes. -/
def heard (content : ContentImpl κ) : Bool -> List (List Nat) -> κ -> List Observation
  | _, [], _ => []
  | first, counts :: rest, k =>
      (if first then [] else [.reset]) ++
        match content.spanSource k with
        | some s =>
            (content.source.pieces counts s).map Observation.data ++
              heard content false rest (content.source.reads counts s).2
        | none => []

section Tee

variable {content : ContentImpl κ} {sinks : List (Option (StreamObserver σ))}

/-- The tee reads what its source does. -/
theorem TeeByteSource.reads_eq (source : ByteSource κ) (sinks : List (StreamObserver σ))
    (counts : List Nat) (t : TeeState κ σ) :
    (TeeByteSource source sinks).reads counts t =
      ((source.reads counts t.source).1,
        { t with
          source := (source.reads counts t.source).2
          observers :=
            ((source.pieces counts t.source).map Observation.data).foldl (observe sinks)
              t.observers }) := by
  induction counts generalizing t with
  | nil => rfl
  | cons count counts ih =>
      have hrest := ih ((TeeByteSource source sinks).read count t).2
      change (((TeeByteSource source sinks).read count t).1 ++
          ((TeeByteSource source sinks).reads counts
            ((TeeByteSource source sinks).read count t).2).1,
        ((TeeByteSource source sinks).reads counts
          ((TeeByteSource source sinks).read count t).2).2) = _
      rw [hrest]
      rfl

theorem TeeByteSource.yields_iff {source : ByteSource κ} {sinks : List (StreamObserver σ)}
    {t : TeeState κ σ} {body : ByteString} :
    (TeeByteSource source sinks).Yields t body ↔ source.Yields t.source body := by
  unfold ByteSource.Yields
  simp only [TeeByteSource.reads_eq]

/-- An attempt with the tee. -/
theorem TeeByteContent.attempt (counts : List Nat) (t : TeeState κ σ) :
    ((TeeByteContent content sinks).spanSource t).map
        (fun s => ((TeeByteContent content sinks).source.reads counts s).2) =
      (content.spanSource t.source).map fun k =>
        { source := (content.source.reads counts k).2
          observers :=
            ((if t.first then [] else [Observation.reset]) ++
              (content.source.pieces counts k).map Observation.data).foldl
                (observe (spanObserver sinks)) t.observers
          first := false } := by
  unfold TeeByteContent
  simp only
  cases content.spanSource t.source with
  | none => rfl
  | some k =>
      rw [Option.map_some, Option.map_some, Option.map_some, TeeByteSource.reads_eq,
        List.foldl_append]
      cases t.first with
      | false => rfl
      | true => rfl

/-- The observers have heard of what was read, and of each attempt after the first. -/
theorem TeeByteContent.attempts_observers {earlier : List (List Nat)} {t t' : TeeState κ σ}
    (hattempts : (TeeByteContent content sinks).attempts earlier t = some t') :
    t'.observers = (heard content t.first earlier t.source).foldl
      (observe (spanObserver sinks)) t.observers := by
  induction earlier generalizing t with
  | nil =>
      cases hattempts
      rfl
  | cons counts rest ih =>
      rw [ContentImpl.attempts_cons, TeeByteContent.attempt] at hattempts
      unfold heard
      cases hspan : content.spanSource t.source with
      | none =>
          rw [hspan] at hattempts
          cases hattempts
      | some k =>
          rw [hspan] at hattempts
          have hrest := ih hattempts
          simp only at hrest ⊢
          rw [hrest, ← List.foldl_append, List.append_assoc]

/-- The tee goes through the attempts as its content does. -/
theorem TeeByteContent.span_source (earlier : List (List Nat)) (t : TeeState κ σ) :
    ((TeeByteContent content sinks).span earlier t).map TeeState.source =
      content.span earlier t.source := by
  refine ContentImpl.span_map ?_ (fun _ _ => rfl) earlier t
  intro t
  change ((content.spanSource t.source).map _).map _ = content.spanSource t.source
  rw [Option.map_map]
  exact Option.map_id'

end Tee

end Internal
end OssSdk
