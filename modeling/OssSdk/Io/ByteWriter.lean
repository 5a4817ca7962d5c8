import OssSdk.Utils.CRC64Utils
import OssSdk.Foundation.Cell

/-!
# Byte writers

A writer is an object behind a pointer: its calls read and change the shared
state.  Nothing is assumed of a writer beyond what its type says, which is that
it does not accept more bytes than it is offered.
-/

namespace OssSdk

open Foundation

variable {σ : Type}

/-- The bits of `std::ios_base::iostate`. -/
structure IoState where
  eof : Bool
  failbit : Bool
  badbit : Bool
deriving DecidableEq

def IoState.goodbit : IoState := ⟨false, false, false⟩

def IoState.fail (st : IoState) : Bool := st.badbit || st.failbit

def IoState.bad (st : IoState) : Bool := st.badbit

theorem IoState.fail_of_bad {st : IoState} (hbad : st.bad = true) :
    st.fail = true := by
  simp only [IoState.bad] at hbad
  simp [IoState.fail, hbad]

structure ByteWriter (σ : Type) where
  onWrite : ByteString -> σ -> Nat × σ
  iostate : σ -> IoState
  onWrite_le : forall data w, (onWrite data w).1 ≤ data.length

namespace ByteWriter

def write (b : ByteWriter σ) (data : ByteString) (w : σ) : Nat × σ :=
  b.onWrite data w

def fail (b : ByteWriter σ) (w : σ) : Bool := (b.iostate w).fail

def bad (b : ByteWriter σ) (w : σ) : Bool := (b.iostate w).bad

theorem fail_of_bad {b : ByteWriter σ} {w : σ} (hbad : b.bad w = true) :
    b.fail w = true :=
  IoState.fail_of_bad hbad

/-- A writer on a part of a larger state. -/
def on {τ : Type} (cell : Cell τ σ) (b : ByteWriter σ) : ByteWriter τ where
  onWrite data w :=
    let (written, part) := b.onWrite data (cell.get w)
    (written, cell.set part w)
  iostate w := b.iostate (cell.get w)
  onWrite_le data w := b.onWrite_le data (cell.get w)

/-- What is left of the state when these chunks have been written in turn. -/
def writes (b : ByteWriter σ) : List ByteString -> σ -> σ
  | [], w => w
  | chunk :: rest, w => writes b rest (b.write chunk w).2

theorem on_writes {τ : Type} (cell : Cell τ σ) (b : ByteWriter σ)
    (chunks : List ByteString) (w : τ) :
    cell.get ((b.on cell).writes chunks w) = b.writes chunks (cell.get w) := by
  induction chunks generalizing w with
  | nil => rfl
  | cons chunk rest ih =>
      have hchunk : cell.get ((b.on cell).write chunk w).2 =
          (b.write chunk (cell.get w)).2 := cell.get_set _ _
      rw [writes, ih, hchunk, writes]

/-- Every byte that is offered is taken. -/
def AcceptsAll (b : ByteWriter σ) : Prop :=
  forall data w, (b.write data w).1 = data.length

/-- A writer, with all that has been offered to it. -/
def recorded (b : ByteWriter σ) : ByteWriter (σ × ByteString) where
  onWrite data w :=
    let (written, env) := b.onWrite data w.1
    (written, env, w.2 ++ data)
  iostate w := b.iostate w.1
  onWrite_le data w := b.onWrite_le data w.1

end ByteWriter

/-!
# Streams
-/

/-- A `std::ostream`: `write` may set any of its state bits. -/
structure OStream (σ : Type) where
  write : ByteString -> σ -> σ
  rdstate : σ -> IoState

def OStreamWriter (os : OStream σ) : ByteWriter σ where
  onWrite data w :=
    let w' := os.write data w
    (if (os.rdstate w').fail then 0 else data.length, w')
  iostate := os.rdstate
  onWrite_le data w := by
    dsimp only
    split <;> omega

/-- A `std::stringstream` that is only written to. -/
def stringstream : OStream ByteString where
  write data content := content ++ data
  rdstate _ := IoState.goodbit

theorem stringstream_writes (chunks : List ByteString) (content : ByteString) :
    (OStreamWriter stringstream).writes chunks content =
      content ++ chunks.flatten := by
  induction chunks generalizing content with
  | nil => exact (List.append_nil content).symm
  | cons chunk rest ih =>
      have hrest := ih (content ++ chunk)
      rw [List.append_assoc] at hrest
      exact hrest

theorem stringstream_acceptsAll : (OStreamWriter stringstream).AcceptsAll :=
  fun _ _ => rfl

/-!
# Observers
-/

/-- A writer that only looks at the data: its state is always good. -/
structure ByteWriterObserver (σ : Type) where
  onWrite : ByteString -> σ -> σ
  onReset : σ -> σ

def ByteWriterObserver.writeAll (observers : List (ByteWriterObserver σ))
    (data : ByteString) (w : σ) : σ :=
  observers.foldl (fun w o => o.onWrite data w) w

def ObservableWriter (writer : ByteWriter σ)
    (observers : List (ByteWriterObserver σ)) : ByteWriter σ where
  onWrite data w :=
    let (written, w) := writer.write data w
    (written,
      if 0 < written then
        ByteWriterObserver.writeAll observers (data.take written) w
      else w)
  iostate := writer.iostate
  onWrite_le := writer.onWrite_le

/-- What `ProgressWriteObserver` keeps, with the reports made so far. -/
structure ProgressState where
  total : Int
  transferred : Nat
  lastTransferred : Nat
  reports : List (Nat × Nat × Int)
deriving DecidableEq

def ProgressState.onWrite (n : Nat) (s : ProgressState) : ProgressState :=
  let transferred := s.transferred + n
  if s.lastTransferred < transferred then
    { s with
      transferred := transferred
      reports := s.reports ++ [(n, transferred, s.total)] }
  else { s with transferred := transferred }

def ProgressState.onReset (s : ProgressState) : ProgressState :=
  { s with lastTransferred := s.transferred, transferred := 0 }

def ProgressWriteObserver (cell : Cell σ ProgressState) :
    ByteWriterObserver σ where
  onWrite data := cell.modify (ProgressState.onWrite data.length)
  onReset := cell.modify ProgressState.onReset

/-- It starts from the checksum of nothing, which `reset` brings back. -/
def CRC64WriteObserver (cell : Cell σ (BitVec 64)) : ByteWriterObserver σ where
  onWrite data := cell.modify fun value => Utils.CalcCRC64 value data
  onReset := cell.set 0

/-!
# A caller's buffer
-/

structure MemoryWriterState where
  buf : ByteString
  capacity : Nat
  overflow : Bool
deriving DecidableEq

/-- The bytes written are the prefix of the buffer up to `offset_`. -/
def MemoryWriterState.onWrite (data : ByteString) (m : MemoryWriterState) :
    Nat × MemoryWriterState :=
  if m.capacity < m.buf.length + data.length then
    (0, { m with overflow := true })
  else (data.length, { m with buf := m.buf ++ data })

def MemoryWriter (cell : Cell σ MemoryWriterState) : ByteWriter σ where
  onWrite data w :=
    let (written, m) := (cell.get w).onWrite data
    (written, cell.set m w)
  iostate w := ⟨false, (cell.get w).overflow, false⟩
  onWrite_le data w := by
    simp only [MemoryWriterState.onWrite]
    split <;> simp

end OssSdk
