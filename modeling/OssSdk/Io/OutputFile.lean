import OssSdk.Io.ByteWriter

/-!
# Files that are written to

A file and the `std::ofstream` that was opened on it last.  What has been written to
a stream counts as being in the file, as it is when the stream is closed; the file
can be opened and takes all that is written to it.
-/

namespace OssSdk

open Foundation

/-- The content with these bytes over it, from a position that may be past its end. -/
def overwrite (content : ByteString) (position : Nat) (data : ByteString) :
    ByteString :=
  content.take position ++ List.replicate (position - content.length) 0 ++ data ++
    content.drop (position + data.length)

theorem overwrite_end (content data : ByteString) :
    overwrite content content.length data = content ++ data := by
  unfold overwrite
  rw [List.take_length, Nat.sub_self, List.replicate_zero, List.append_nil,
    List.drop_eq_nil_of_le (Nat.le_add_right _ _), List.append_nil]

structure FileStream where
  position : Nat
  state : IoState
deriving DecidableEq

/-- The content is missing where there is no such file. -/
structure OutputFile where
  content : Option ByteString
  fileStream : Option FileStream
deriving DecidableEq

namespace OutputFile

def failbit : IoState := ⟨false, true, false⟩

/-- A new stream, with `std::ios::trunc`. -/
def openTrunc (_ : OutputFile) : OutputFile := ⟨some [], some ⟨0, IoState.goodbit⟩⟩

/-- A new stream, with `std::ios::in | std::ios::out`, which needs the file to be there. -/
def openUpdate (f : OutputFile) : OutputFile :=
  { f with
    fileStream :=
      some ⟨0, if f.content.isSome then IoState.goodbit else failbit⟩ }

def rdstate (f : OutputFile) : IoState :=
  match f.fileStream with
  | some stream => stream.state
  | none => failbit

def seekp (position : Nat) (f : OutputFile) : OutputFile :=
  if f.rdstate.fail then f
  else { f with fileStream := f.fileStream.map ({ · with position := position }) }

def write (data : ByteString) (f : OutputFile) : OutputFile :=
  match f.content, f.fileStream with
  | some content, some stream =>
      if stream.state.fail then f
      else
        { content := some (overwrite content stream.position data)
          fileStream :=
            some { stream with position := stream.position + data.length } }
  | _, _ => f

def ofstream : OStream OutputFile where
  write := write
  rdstate := rdstate

/-- A file with this content, and a stream that has come to its end. -/
def atEnd (content : ByteString) : OutputFile :=
  ⟨some content, some ⟨content.length, IoState.goodbit⟩⟩

theorem seekp_openUpdate {f : OutputFile} {content : ByteString}
    (hcontent : f.content = some content) :
    f.openUpdate.seekp content.length = atEnd content := by
  rcases f with ⟨fileContent, fileStream⟩
  cases hcontent
  rfl

theorem write_atEnd (content data : ByteString) :
    (atEnd content).write data = atEnd (content ++ data) := by
  have hwrite : (atEnd content).write data =
      { content := some (overwrite content content.length data)
        fileStream := some ⟨content.length + data.length, IoState.goodbit⟩ } := rfl
  rw [hwrite, overwrite_end, ← List.length_append]
  rfl

end OutputFile
end OssSdk
