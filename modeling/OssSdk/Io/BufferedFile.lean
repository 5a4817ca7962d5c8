import OssSdk.Io.OutputFile

/-!
# Files behind a buffer

What is written to a `std::ofstream` waits in a buffer of any size.  A call of the stream
may take some of it to the file, and may fail; the destructor of the stream takes what is
left, and tells nobody whether it could.
-/

namespace OssSdk

open Foundation

/--
What comes of one call of a stream: a write takes so many of the waiting bytes to the file,
and may fail for all that.
-/
structure IoOutcome where
  drained : Nat
  ok : Bool
deriving DecidableEq

/-- The buffer begins at the position of the file. -/
structure BufferedStream where
  filePosition : Nat
  buffer : ByteString
  state : IoState
deriving DecidableEq

/--
`content` is what the streams of a download have brought to the file, missing as long as
none could be opened anew, and `outcomes` are those of the calls that are still to come.
-/
structure BufferedFile where
  content : Option ByteString
  stream : Option BufferedStream
  outcomes : List IoOutcome
deriving DecidableEq

namespace BufferedFile

/-- Behind the outcomes that are told, nothing fails. -/
def nextOutcome (f : BufferedFile) : IoOutcome := f.outcomes.head?.getD ⟨0, true⟩

def setStream (f : BufferedFile) (s : BufferedStream) : BufferedFile :=
  { f with stream := some s }

/-- A call is over. -/
def next (f : BufferedFile) : BufferedFile := { f with outcomes := f.outcomes.tail }

def opened (f : BufferedFile) (content : Option ByteString) (ok : Bool) : BufferedFile :=
  { f with
    content := content
    stream := some ⟨0, [], if ok then IoState.goodbit else OutputFile.failbit⟩ }.next

/-- A new stream, with `std::ios::trunc`. -/
def openTrunc (f : BufferedFile) : BufferedFile :=
  f.opened (if f.nextOutcome.ok then some [] else none) f.nextOutcome.ok

/-- A new stream, with `std::ios::in | std::ios::out`, which needs the file to be there. -/
def openUpdate (f : BufferedFile) : BufferedFile :=
  f.opened f.content (f.nextOutcome.ok && f.content.isSome)

def rdstate (f : BufferedFile) : IoState :=
  match f.stream with
  | some s => s.state
  | none => OutputFile.failbit

/-- `seekp` of a stream that has just been opened. -/
def seekp (position : Nat) (f : BufferedFile) : BufferedFile :=
  if f.rdstate.fail then f
  else { f with stream := f.stream.map ({ · with filePosition := position }) }

/-- So many of the waiting bytes get to the file. -/
def drain (n : Nat) (f : BufferedFile) (s : BufferedStream) : BufferedFile :=
  { f with
    content := f.content.map (overwrite · s.filePosition (s.buffer.take n))
    stream :=
      some
        { s with
          filePosition := s.filePosition + (s.buffer.take n).length
          buffer := s.buffer.drop n } }

theorem rdstate_of_stream {f : BufferedFile} {s : BufferedStream}
    (hstream : f.stream = some s) : f.rdstate = s.state := by
  unfold rdstate
  rw [hstream]

def setBad (f : BufferedFile) : BufferedFile :=
  { f with stream := f.stream.map fun s => { s with state := { s.state with badbit := true } } }

def write (data : ByteString) (f : BufferedFile) : BufferedFile :=
  match f.stream with
  | none => f
  | some s =>
      if s.state.fail then f
      else
        let drained := drain f.nextOutcome.drained f.next { s with buffer := s.buffer ++ data }
        if f.nextOutcome.ok then drained else drained.setBad

/-- A flush that fails leaves a byte behind, at least. -/
def flushed (f : BufferedFile) (s : BufferedStream) : BufferedFile :=
  if f.nextOutcome.ok then drain s.buffer.length f.next s
  else (drain (min f.nextOutcome.drained (s.buffer.length - 1)) f.next s).setBad

def flush (f : BufferedFile) : BufferedFile :=
  match f.stream with
  | none => f
  | some s => if s.state.fail = true ∨ s.buffer = [] then f else f.flushed s

/-- The destructor of the stream. -/
def close (f : BufferedFile) : BufferedFile :=
  match f.stream with
  | none => f
  | some s => { if s.buffer = [] then f else f.flushed s with stream := none }

def ofstream : OStream BufferedFile where
  write := write
  rdstate := rdstate

def fileStream (f : BufferedFile) : Option FileStream :=
  f.stream.map fun s => ⟨s.filePosition + s.buffer.length, s.state⟩

def writes (chunks : List ByteString) (f : BufferedFile) : BufferedFile :=
  chunks.foldl (fun f data => f.write data) f

/-- All of these bytes have been brought to the file, if there are any. -/
def Arrived (bytes : ByteString) (f : BufferedFile) : Prop :=
  bytes = [] ∨ f.content = some bytes

/-- The stream is destroyed here, or lives on. -/
def closedIf (closes : Bool) (f : BufferedFile) : BufferedFile :=
  if closes then f.close else f

/-- Nothing waits in the buffer, or the destructor of the stream brings it to the file. -/
def Flushes (closes : Bool) (f : BufferedFile) : Prop :=
  forall s, f.stream = some s ->
    s.buffer = [] ∨ (closes = true ∧ f.nextOutcome.ok = true)

/-!
# What a stream holds
-/

/-- A good stream at the end of its file, which will have these bytes when it is flushed. -/
structure Holds (f : BufferedFile) (bytes content : ByteString) (s : BufferedStream) :
    Prop where
  brought : f.content = some content
  isOpen : f.stream = some s
  good : s.state.fail = false
  atEnd : s.filePosition = content.length
  whole : content ++ s.buffer = bytes

theorem opened_holds (f : BufferedFile) (content : ByteString) :
    Holds ((f.opened (some content) true).seekp content.length) content content
      ⟨content.length, [], IoState.goodbit⟩ :=
  ⟨rfl, rfl, rfl, rfl, List.append_nil content⟩

theorem drain_holds {f : BufferedFile} {s : BufferedStream} {content : ByteString}
    (n : Nat) (hcontent : f.content = some content) (hgood : s.state.fail = false)
    (hend : s.filePosition = content.length) :
    Holds (drain n f s) (content ++ s.buffer) (content ++ s.buffer.take n)
      { s with
        filePosition := s.filePosition + (s.buffer.take n).length
        buffer := s.buffer.drop n } := by
  constructor
  · unfold drain
    rw [hcontent, hend]
    exact congrArg some (overwrite_end content _)
  · rfl
  · exact hgood
  · rw [hend, List.length_append]
  · rw [List.append_assoc, List.take_append_drop]

theorem setBad_bad {f : BufferedFile} {s : BufferedStream} (hstream : f.stream = some s) :
    f.setBad.rdstate.bad = true := by
  unfold setBad rdstate
  rw [hstream]
  rfl

/-- A write is remembered, or the stream is bad behind it. -/
theorem write_holds {f : BufferedFile} {bytes content : ByteString} {s : BufferedStream}
    (hholds : f.Holds bytes content s) (data : ByteString) :
    (exists content' s', (f.write data).Holds (bytes ++ data) content' s') ∨
      (f.write data).rdstate.bad = true := by
  have hdrained := @drain_holds f.next { s with buffer := s.buffer ++ data } content
      f.nextOutcome.drained hholds.brought hholds.good hholds.atEnd
  have hbytes : content ++ (s.buffer ++ data) = bytes ++ data := by
    rw [← List.append_assoc, hholds.whole]
  unfold write
  simp only [hholds.isOpen, hholds.good, Bool.false_eq_true, if_false]
  cases f.nextOutcome.ok with
  | true =>
      rw [← hbytes]
      exact Or.inl ⟨_, _, hdrained⟩
  | false => exact Or.inr (setBad_bad hdrained.isOpen)

theorem write_of_fail {f : BufferedFile} (hfail : f.rdstate.fail = true)
    (data : ByteString) : f.write data = f := by
  unfold rdstate at hfail
  unfold write
  cases hstream : f.stream with
  | none => rfl
  | some s =>
      rw [hstream] at hfail
      exact if_pos hfail

/-- A stream that is good when it has been flushed has brought all to its file. -/
theorem flush_holds {f : BufferedFile} {bytes content : ByteString} {s : BufferedStream}
    (hholds : f.Holds bytes content s) (hgood : f.flush.rdstate.fail = false) :
    f.flush.content = some bytes ∧
      exists s', f.flush.stream = some s' ∧ s'.buffer = [] := by
  unfold flush at hgood ⊢
  simp only [hholds.isOpen, hholds.good, Bool.false_eq_true, false_or] at hgood ⊢
  split
  · rename_i hempty
    have hbytes := hholds.whole
    rw [hempty, List.append_nil] at hbytes
    rw [← hbytes]
    exact ⟨hholds.brought, s, hholds.isOpen, hempty⟩
  · rename_i hsome
    rw [if_neg hsome] at hgood
    have hflush := @drain_holds f.next s content s.buffer.length hholds.brought hholds.good
        hholds.atEnd
    unfold flushed at hgood ⊢
    cases hok : f.nextOutcome.ok with
    | true =>
        rw [if_pos rfl, hflush.brought, List.take_length, hholds.whole]
        exact ⟨rfl, _, hflush.isOpen, List.drop_length⟩
    | false =>
        rw [hok, if_neg Bool.false_ne_true] at hgood
        have hbad := @setBad_bad
          (drain (min f.nextOutcome.drained (s.buffer.length - 1)) f.next s) _ rfl
        rw [IoState.fail_of_bad hbad] at hgood
        cases hgood

theorem close_empty {f : BufferedFile}
    (hempty : forall s, f.stream = some s -> s.buffer = []) :
    f.close.content = f.content ∧ f.close.stream = none := by
  unfold close
  cases hstream : f.stream with
  | none => exact ⟨rfl, hstream⟩
  | some s =>
      simp only [if_pos (hempty s hstream)]
      exact ⟨trivial, trivial⟩

/-- All has got to the file if and only if the destructor has nothing to do or does it. -/
theorem close_holds {f : BufferedFile} {bytes content : ByteString} {s : BufferedStream}
    (hholds : f.Holds bytes content s) :
    f.close.content = some bytes ↔ s.buffer = [] ∨ f.nextOutcome.ok = true := by
  unfold close
  simp only [hholds.isOpen]
  split
  · rename_i hempty
    have hbytes := hholds.whole
    rw [hempty, List.append_nil] at hbytes
    rw [← hbytes]
    exact ⟨fun _ => Or.inl hempty, fun _ => hholds.brought⟩
  · rename_i hsome
    unfold flushed
    cases hok : f.nextOutcome.ok with
    | true =>
        have hflush := @drain_holds f.next s content s.buffer.length hholds.brought
            hholds.good hholds.atEnd
        rw [if_pos rfl, hflush.brought, List.take_length, hholds.whole]
        exact ⟨fun _ => Or.inr rfl, fun _ => rfl⟩
    | false =>
        have hpart := @drain_holds f.next s content
            (min f.nextOutcome.drained (s.buffer.length - 1)) hholds.brought hholds.good
            hholds.atEnd
        rw [if_neg Bool.false_ne_true]
        constructor
        · intro hall
          have hleft := hpart.brought.symm.trans hall
          have htaken := List.append_cancel_left
            ((Option.some.inj hleft).trans hholds.whole.symm)
          have hlength := congrArg List.length htaken
          have hpos := List.length_pos_iff.mpr hsome
          rw [List.length_take] at hlength
          omega
        · intro hclosed
          cases hclosed with
          | inl hempty => exact absurd hempty hsome
          | inr htrue => cases htrue

theorem closedIf_holds {f : BufferedFile} {bytes content : ByteString}
    {s : BufferedStream} (closes : Bool) (hholds : f.Holds bytes content s) :
    (f.closedIf closes).content = some bytes ↔ f.Flushes closes := by
  have hflushes : f.Flushes closes ↔
      s.buffer = [] ∨ (closes = true ∧ f.nextOutcome.ok = true) := by
    unfold Flushes
    rw [hholds.isOpen]
    exact ⟨fun h => h s rfl, fun h s' hs' => by cases hs'; exact h⟩
  rw [hflushes]
  cases closes with
  | true =>
      refine (close_holds hholds).trans (or_congr_right ?_)
      exact ⟨fun h => ⟨rfl, h⟩, And.right⟩
  | false =>
      change f.content = some bytes ↔ _
      rw [hholds.brought, ← hholds.whole]
      constructor
      · intro hall
        exact Or.inl (List.self_eq_append_right.mp (Option.some.inj hall))
      · intro hempty
        rcases hempty with hempty | ⟨hnever, _⟩
        · rw [hempty, List.append_nil]
        · cases hnever

/-!
# A stream from its opening on
-/

theorem writes_of_fail {f : BufferedFile} (hfail : f.rdstate.fail = true)
    (chunks : List ByteString) : f.writes chunks = f := by
  induction chunks with
  | nil => rfl
  | cons chunk rest ih =>
      change (f.write chunk).writes rest = f
      rw [write_of_fail hfail]
      exact ih

theorem writes_holds {f : BufferedFile} {bytes content : ByteString} {s : BufferedStream}
    (hholds : f.Holds bytes content s) (chunks : List ByteString) :
    (exists content' s', (f.writes chunks).Holds (bytes ++ chunks.flatten) content' s') ∨
      (f.writes chunks).rdstate.bad = true := by
  induction chunks generalizing f bytes content s with
  | nil =>
      rw [List.flatten_nil, List.append_nil]
      exact Or.inl ⟨content, s, hholds⟩
  | cons chunk rest ih =>
      change (exists content' s', ((f.write chunk).writes rest).Holds _ content' s') ∨
        ((f.write chunk).writes rest).rdstate.bad = true
      rcases write_holds hholds chunk with ⟨content', s', hwritten⟩ | hbad
      · have hrest := ih hwritten
        rw [List.append_assoc] at hrest
        exact hrest
      · rw [writes_of_fail (IoState.fail_of_bad hbad)]
        exact Or.inr hbad

/-- A stream behind these bytes, or one that could not be opened. -/
inductive Opened (before : ByteString) (f : BufferedFile) : Prop where
  | good {s : BufferedStream} : f.Holds before before s -> Opened before f
  | failed {s : BufferedStream} :
      f.stream = some s -> s.buffer = [] -> s.state = OutputFile.failbit ->
      f.content = (if before = [] then none else some before) -> Opened before f

/-- The file begins anew at the offset zero, and is gone on with at any other. -/
theorem openAt_opened {f : BufferedFile} {before : ByteString}
    (hbefore : f.Arrived before) :
    Opened before
      (if before.length = 0 then f.openTrunc else f.openUpdate.seekp before.length) := by
  cases hok : f.nextOutcome.ok with
  | false =>
      split
      · rename_i hzero
        have hnone : f.openTrunc.content = none := by
          unfold openTrunc
          rw [hok]
          rfl
        refine .failed rfl rfl ?_ ?_
        · rw [hok]
          rfl
        · rw [hnone, if_pos (List.length_eq_zero_iff.mp hzero)]
      · rename_i hsome
        have hbytes : before ≠ [] := fun h => hsome (List.length_eq_zero_iff.mpr h)
        have hcontent := hbefore.resolve_left hbytes
        have hseek : f.openUpdate.seekp before.length = f.openUpdate := by
          unfold openUpdate
          rw [hok]
          rfl
        rw [hseek]
        refine .failed rfl rfl ?_ ?_
        · rw [hok]
          rfl
        · rw [if_neg hbytes]
          exact hcontent
  | true =>
      split
      · rename_i hzero
        have hopen : f.openTrunc = f.opened (some []) true := by
          unfold openTrunc
          rw [hok]
          rfl
        rw [hopen, List.length_eq_zero_iff.mp hzero]
        exact .good (opened_holds f [])
      · rename_i hsome
        have hbytes : before ≠ [] := fun h => hsome (List.length_eq_zero_iff.mpr h)
        have hopen : f.openUpdate = f.opened (some before) true := by
          unfold openUpdate
          rw [hok, hbefore.resolve_left hbytes]
          rfl
        rw [hopen]
        exact .good (opened_holds f before)

theorem flush_of_fail {f : BufferedFile} (hfail : f.rdstate.fail = true) : f.flush = f := by
  unfold rdstate at hfail
  unfold flush
  cases hstream : f.stream with
  | none => rfl
  | some s =>
      rw [hstream] at hfail
      exact if_pos (Or.inl hfail)

/-- What is written and flushed without an error has arrived. -/
theorem Opened.flush_content {f : BufferedFile} {before : ByteString}
    (hopened : f.Opened before) (chunks : List ByteString)
    (hgood : (f.writes chunks).flush.rdstate.fail = false) :
    (f.writes chunks).flush.content = some (before ++ chunks.flatten) ∧
      exists s, (f.writes chunks).flush.stream = some s ∧ s.buffer = [] := by
  have hnot : (f.writes chunks).rdstate.fail ≠ true := fun hfail => by
    rw [flush_of_fail hfail, hfail] at hgood
    cases hgood
  cases hopened with
  | good hholds =>
      rcases writes_holds hholds chunks with ⟨content, s, hwritten⟩ | hbad
      · exact flush_holds hwritten hgood
      · exact absurd (IoState.fail_of_bad hbad) hnot
  | failed hstream hempty hstate hcontent =>
      have hfail : f.rdstate.fail = true := by
        rw [rdstate_of_stream hstream, hstate]
        rfl
      rw [writes_of_fail hfail] at hnot
      exact absurd hfail hnot

/--
Where the writes have not found the stream bad, all has arrived if and only if the stream
was open, or had nothing to take, and nothing is left behind in its buffer.
-/
theorem Opened.arrived_iff {f : BufferedFile} {before : ByteString}
    (hopened : f.Opened before) (chunks : List ByteString)
    (hgood : chunks ≠ [] -> (f.writes chunks).rdstate.bad = false) (closes : Bool) :
    Arrived (before ++ chunks.flatten) ((f.writes chunks).closedIf closes) ↔
      (chunks.flatten = [] ∨ (f.writes chunks).rdstate.fail = false) ∧
        (f.writes chunks).Flushes closes := by
  cases hopened with
  | good hholds =>
      have hwritten : exists content s,
          (f.writes chunks).Holds (before ++ chunks.flatten) content s := by
        rcases writes_holds hholds chunks with hwritten | hbad
        · exact hwritten
        · by_cases hnone : chunks = []
          · rw [hnone, List.flatten_nil, List.append_nil]
            exact ⟨_, _, hholds⟩
          · rw [hgood hnone] at hbad
            cases hbad
      rcases hwritten with ⟨content, s, hwritten⟩
      have hstate : (f.writes chunks).rdstate.fail = false := by
        rw [rdstate_of_stream hwritten.isOpen]
        exact hwritten.good
      refine Iff.trans ?_ (and_iff_right (Or.inr hstate)).symm
      rw [← closedIf_holds closes hwritten]
      constructor
      · intro harrived
        rcases harrived with hnone | harrived
        · have hempty := hwritten.whole
          rw [hnone] at hempty
          rw [closedIf_holds closes hwritten]
          intro s' hs'
          rw [hwritten.isOpen] at hs'
          cases hs'
          exact Or.inl (List.append_eq_nil_iff.mp hempty).2
        · exact harrived
      · exact Or.inr
  | failed hstream hempty hstate hcontent =>
      have hfail : f.rdstate.fail = true := by
        rw [rdstate_of_stream hstream, hstate]
        rfl
      rw [writes_of_fail hfail]
      have hflushes : f.Flushes closes := fun s' hs' => by
        rw [hstream] at hs'
        cases hs'
        exact Or.inl hempty
      have hkept : (f.closedIf closes).content = f.content := by
        cases closes with
        | false => rfl
        | true =>
            refine (close_empty fun s' hs' => ?_).1
            rw [hstream] at hs'
            cases hs'
            exact hempty
      unfold Arrived
      rw [hkept, hcontent, hfail]
      constructor
      · intro harrived
        refine ⟨Or.inl ?_, hflushes⟩
        rcases harrived with hnone | harrived
        · exact (List.append_eq_nil_iff.mp hnone).2
        · split at harrived
          · cases harrived
          · exact List.self_eq_append_right.mp (Option.some.inj harrived)
      · intro hnothing
        rcases hnothing.1 with hnone | hnever
        · rw [hnone, List.append_nil]
          split
          · rename_i hbefore
            exact Or.inl hbefore
          · exact Or.inr rfl
        · cases hnever

/-!
# Where a stream stands
-/

theorem drain_fileStream (n : Nat) (f : BufferedFile) (s : BufferedStream) :
    (drain n f s).fileStream = some ⟨s.filePosition + s.buffer.length, s.state⟩ := by
  have hlength : (s.buffer.take n).length + (s.buffer.drop n).length = s.buffer.length := by
    rw [← List.length_append, List.take_append_drop]
  unfold drain fileStream
  rw [Option.map_some, Nat.add_assoc, hlength]

theorem setBad_fileStream {f : BufferedFile} {s : FileStream}
    (hs : f.setBad.fileStream = some s) : s.state.fail = true := by
  unfold setBad fileStream at hs
  cases hstream : f.stream with
  | none =>
      rw [hstream] at hs
      cases hs
  | some stream =>
      rw [hstream] at hs
      cases hs
      rfl

/-- A good stream stands behind what was written to it. -/
theorem write_position {data : ByteString} {f : BufferedFile} {s' : FileStream}
    (hs' : (f.write data).fileStream = some s') (hgood : s'.state.fail = false) :
    exists s, f.fileStream = some s ∧ s.state.fail = false ∧
      s'.position = s.position + data.length := by
  unfold write at hs'
  cases hstream : f.stream with
  | none =>
      simp only [hstream] at hs'
      unfold fileStream at hs'
      rw [hstream] at hs'
      cases hs'
  | some s =>
      have hbefore : f.fileStream = some ⟨s.filePosition + s.buffer.length, s.state⟩ := by
        unfold fileStream
        rw [hstream]
        rfl
      simp only [hstream] at hs'
      split at hs'
      · rename_i hfail
        rw [hbefore] at hs'
        cases hs'
        rw [hfail] at hgood
        cases hgood
      · split at hs'
        · rw [drain_fileStream] at hs'
          cases hs'
          refine ⟨_, hbefore, hgood, ?_⟩
          rw [List.length_append, Nat.add_assoc]
        · rw [setBad_fileStream hs'] at hgood
          cases hgood

theorem flush_position {f : BufferedFile} {s' : FileStream}
    (hs' : f.flush.fileStream = some s') (hgood : s'.state.fail = false) :
    exists s, f.fileStream = some s ∧ s.state.fail = false ∧ s'.position = s.position := by
  unfold flush at hs'
  cases hstream : f.stream with
  | none =>
      simp only [hstream] at hs'
      unfold fileStream at hs'
      rw [hstream] at hs'
      cases hs'
  | some s =>
      have hbefore : f.fileStream = some ⟨s.filePosition + s.buffer.length, s.state⟩ := by
        unfold fileStream
        rw [hstream]
        rfl
      simp only [hstream] at hs'
      split at hs'
      · exact ⟨s', hs', hgood, rfl⟩
      · unfold flushed at hs'
        split at hs'
        · rw [drain_fileStream] at hs'
          cases hs'
          exact ⟨_, hbefore, hgood, rfl⟩
        · rw [setBad_fileStream hs'] at hgood
          cases hgood

theorem seekp_position {n : Nat} {f : BufferedFile} {s : FileStream}
    (hs : (f.openUpdate.seekp n).fileStream = some s) (hgood : s.state.fail = false) :
    s.position = n := by
  have hstate : f.openUpdate.rdstate =
      if f.nextOutcome.ok && f.content.isSome then IoState.goodbit
      else OutputFile.failbit := rfl
  unfold seekp at hs
  rw [hstate] at hs
  cases hopen : f.nextOutcome.ok && f.content.isSome with
  | true =>
      rw [hopen] at hs
      cases hs
      rfl
  | false =>
      have hfailed : f.openUpdate.fileStream = some ⟨0, OutputFile.failbit⟩ := by
        unfold openUpdate
        rw [hopen]
        rfl
      rw [hopen] at hs
      have hs' : f.openUpdate.fileStream = some s := hs
      rw [hfailed] at hs'
      cases hs'
      cases hgood

theorem close_fileStream (f : BufferedFile) : f.close.fileStream = none := by
  unfold close fileStream
  cases hstream : f.stream with
  | none => exact congrArg (Option.map _) hstream
  | some s => rfl

end BufferedFile
end OssSdk
