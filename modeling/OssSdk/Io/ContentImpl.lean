import OssSdk.Io.StreamContent

/-!
# Bodies as objects

A body is asked for a new source at each attempt to send it.  The attempts before it have
read their sources into buffers of some sizes, and may have given up anywhere.
-/

namespace OssSdk

open Foundation

variable {κ ρ : Type}

/-!
# Sources that fill their buffers
-/

namespace ByteSource

/-- What the reads give, one by one. -/
def pieces (source : ByteSource ρ) : List Nat -> ρ -> List ByteString
  | [], _ => []
  | count :: counts, r =>
      (source.read count r).1 :: pieces source counts (source.read count r).2

theorem flatten_pieces (source : ByteSource ρ) (counts : List Nat) (r : ρ) :
    (source.pieces counts r).flatten = (source.reads counts r).1 := by
  induction counts generalizing r with
  | nil => rfl
  | cons count counts ih => exact congrArg _ (ih _)

theorem reads_append (source : ByteSource ρ) (counts more : List Nat) (r : ρ) :
    source.reads (counts ++ more) r =
      ((source.reads counts r).1 ++ (source.reads more (source.reads counts r).2).1,
        (source.reads more (source.reads counts r).2).2) := by
  induction counts generalizing r with
  | nil => rfl
  | cons count counts ih =>
      change ((source.read count r).1 ++
          (source.reads (counts ++ more) (source.read count r).2).1,
        (source.reads (counts ++ more) (source.read count r).2).2) = _
      rw [ih, ← List.append_assoc]
      rfl

theorem reads_single (source : ByteSource ρ) (count : Nat) (r : ρ) :
    source.reads [count] r = source.read count r := by
  change ((source.read count r).1 ++ [], (source.read count r).2) = _
  rw [List.append_nil]

theorem reads_invariant {source : ByteSource ρ} {invariant : ρ -> Prop}
    (hread : forall count r, invariant r -> invariant (source.read count r).2)
    (counts : List Nat) {r : ρ} (hr : invariant r) : invariant (source.reads counts r).2 := by
  induction counts generalizing r with
  | nil => exact hr
  | cons count counts ih => exact ih (hread count r hr)

theorem Yields.unique {source : ByteSource ρ} {r : ρ} {body body' : ByteString}
    (hyields : source.Yields r body) (hyields' : source.Yields r body') : body = body' := by
  have hread := hyields [max body.length body'.length]
  rw [hyields' _, List.sum_singleton, List.take_of_length_le (le_max_right _ _),
    List.take_of_length_le (le_max_left _ _)] at hread
  exact hread.symm

/-- Reading until there is nothing more gives all of the bytes. -/
theorem Yields.readsToEnd_iff {source : ByteSource ρ} {r : ρ} {body : ByteString}
    (hyields : source.Yields r body) (n : Nat) :
    (forall counts count, 0 < count ->
      (source.read count (source.reads counts r).2).1 = [] ->
        (source.reads counts r).1.length = n) ↔ body.length = n := by
  have hnext : forall counts count, (source.reads counts r).1 ++
      (source.read count (source.reads counts r).2).1 =
        body.take (counts.sum + count) := by
    intro counts count
    have hmore := hyields (counts ++ [count])
    rw [reads_append, reads_single, List.sum_append, List.sum_singleton] at hmore
    exact hmore
  constructor
  · intro hall
    have hread := hyields [body.length]
    rw [List.sum_singleton, List.take_length] at hread
    have hnone := hnext [body.length] 1
    rw [hread, List.sum_singleton, List.take_of_length_le (Nat.le_succ _)] at hnone
    have hlength := hall [body.length] 1 Nat.one_pos (List.append_right_eq_self.mp hnone)
    rw [hread] at hlength
    exact hlength
  · intro hlength counts count hcount hnone
    have hmore := hnext counts count
    rw [hnone, List.append_nil, hyields counts] at hmore
    have hlengths := congrArg List.length hmore
    rw [List.length_take, List.length_take] at hlengths
    rw [hyields counts, List.length_take]
    omega

end ByteSource

/-!
# Implementations
-/

/--
A class that implements `ByteContent`, over the state of an object of the class and of the
source that it has given last.  There is no source where a stream that is missing would be
used.
-/
structure ContentImpl (κ : Type) where
  length : κ -> Option Nat
  isOneShot : κ -> Bool
  source : ByteSource κ
  spanSource : κ -> Option κ

namespace ContentImpl

variable (impl : ContentImpl κ)

/-- After attempts with reads of these sizes. -/
def attempts : List (List Nat) -> κ -> Option κ
  | [], k => some k
  | counts :: rest, k =>
      (impl.spanSource k).bind fun k => attempts rest (impl.source.reads counts k).2

/-- The source of the attempt that comes after these. -/
def span (earlier : List (List Nat)) (k : κ) : Option κ :=
  (impl.attempts earlier k).bind impl.spanSource

/-- Whatever the attempts before it have read, each attempt is given the same bytes. -/
def Replays (k : κ) : Prop :=
  exists body, forall earlier, exists s, impl.span earlier k = some s ∧
    impl.source.Yields s body

/--
A length that is announced is the number of the bytes that a source gives which is read to
its end, if there are as many bytes as that.  A body for a single attempt has one source.
-/
def AnnouncesLength (k : κ) (available : Nat) : Prop :=
  forall n, impl.length k = some n -> n ≤ available ->
    forall earlier, (impl.isOneShot k = true -> earlier = []) ->
      exists s, impl.span earlier k = some s ∧
        forall counts count, 0 < count ->
          (impl.source.read count (impl.source.reads counts s).2).1 = [] ->
            (impl.source.reads counts s).1.length = n

/--
A body whose first source gives these bytes.  Where it is not for a single attempt, either
all of its sources do, or one of them gives nothing of them or cannot be made at all.
-/
structure Serves (k : κ) (body : ByteString) (rewinds : Prop) : Prop where
  first : exists s, impl.spanSource k = some s ∧ impl.source.Yields s body
  again : impl.isOneShot k = false -> rewinds -> forall earlier,
    exists s, impl.span earlier k = some s ∧ impl.source.Yields s body
  broken : impl.isOneShot k = false -> ¬ rewinds -> exists earlier, forall s,
    impl.span earlier k = some s -> impl.source.Yields s [] ∧ body ≠ []

variable {impl}

theorem attempts_cons (impl : ContentImpl κ) (counts : List Nat)
    (rest : List (List Nat)) (k : κ) :
    impl.attempts (counts :: rest) k =
      ((impl.spanSource k).map fun s => (impl.source.reads counts s).2).bind
        (impl.attempts rest) := by
  rw [ContentImpl.attempts, Option.bind_map]
  rfl

/-- What a new source and its reads keep, all attempts keep. -/
theorem attempts_invariant {invariant : κ -> Prop}
    (hspan : forall k s, invariant k -> impl.spanSource k = some s ->
      forall counts, invariant (impl.source.reads counts s).2)
    {earlier : List (List Nat)} {k k' : κ} (hk : invariant k)
    (hattempts : impl.attempts earlier k = some k') : invariant k' := by
  induction earlier generalizing k with
  | nil =>
      cases hattempts
      exact hk
  | cons counts rest ih =>
      rw [attempts_cons] at hattempts
      cases hs : impl.spanSource k with
      | none =>
          rw [hs] at hattempts
          cases hattempts
      | some s =>
          rw [hs] at hattempts
          exact ih (hspan k s hk hs counts) hattempts

theorem span_cons (counts : List Nat) (rest : List (List Nat)) (k : κ) :
    impl.span (counts :: rest) k =
      (impl.spanSource k).bind fun s => impl.span rest (impl.source.reads counts s).2 := by
  unfold span
  rw [attempts, Option.bind_assoc]

/-- A class that goes on with its sources as another one does. -/
theorem span_map {κ' : Type} {impl' : ContentImpl κ'} {f : κ' -> κ}
    (hspan : forall k, (impl'.spanSource k).map f = impl.spanSource (f k))
    (hread : forall count k, f (impl'.source.read count k).2 =
      (impl.source.read count (f k)).2)
    (earlier : List (List Nat)) (k : κ') :
    (impl'.span earlier k).map f = impl.span earlier (f k) := by
  have hreads : forall counts k, f (impl'.source.reads counts k).2 =
      (impl.source.reads counts (f k)).2 := by
    intro counts
    induction counts with
    | nil => exact fun _ => rfl
    | cons count counts ih =>
        intro k
        have hrest := ih (impl'.source.read count k).2
        rw [hread] at hrest
        exact hrest
  induction earlier generalizing k with
  | nil => exact hspan k
  | cons counts rest ih =>
      rw [span_cons, span_cons, ← hspan]
      cases impl'.spanSource k with
      | none => rfl
      | some s =>
          have hrest := ih (impl'.source.reads counts s).2
          rw [hreads] at hrest
          exact hrest

/-- What each source leaves behind lets the next one begin as it did. -/
theorem replays_of_invariant {invariant : κ -> Prop} {body : ByteString}
    (hspan : forall k, invariant k -> exists s, impl.spanSource k = some s ∧
      impl.source.Yields s body ∧
      forall counts, invariant (impl.source.reads counts s).2)
    {k : κ} (hk : invariant k) (earlier : List (List Nat)) :
    exists s, impl.span earlier k = some s ∧ impl.source.Yields s body := by
  induction earlier generalizing k with
  | nil =>
      rcases hspan k hk with ⟨s, hs, hyields, _⟩
      exact ⟨s, hs, hyields⟩
  | cons counts rest ih =>
      rcases hspan k hk with ⟨s, hs, _, hnext⟩
      rcases ih (hnext counts) with ⟨s', hs', hyields⟩
      refine ⟨s', ?_, hyields⟩
      rw [span_cons, hs]
      exact hs'

/-- Where every source gives the same bytes, it is their number that is announced. -/
theorem announcesLength_of_replays {k : κ} {body : ByteString} {available : Nat}
    (hreplays : forall earlier, exists s, impl.span earlier k = some s ∧
      impl.source.Yields s body) :
    impl.AnnouncesLength k available ↔
      forall n, impl.length k = some n -> n ≤ available -> body.length = n := by
  constructor
  · intro hannounces n hn havailable
    rcases hannounces n hn havailable [] (fun _ => rfl) with ⟨s, hs, hend⟩
    rcases hreplays [] with ⟨s', hs', hyields⟩
    cases hs.symm.trans hs'
    exact (hyields.readsToEnd_iff n).mp hend
  · intro hlength n hn havailable earlier _
    rcases hreplays earlier with ⟨s, hs, hyields⟩
    exact ⟨s, hs, (hyields.readsToEnd_iff n).mpr (hlength n hn havailable)⟩

/-- A body for a single attempt. -/
theorem announcesLength_of_oneShot {k s : κ} {body : ByteString} {available : Nat}
    (honeShot : impl.isOneShot k = true) (hs : impl.spanSource k = some s)
    (hyields : impl.source.Yields s body) :
    impl.AnnouncesLength k available ↔
      forall n, impl.length k = some n -> n ≤ available -> body.length = n := by
  constructor
  · intro hannounces n hn havailable
    rcases hannounces n hn havailable [] (fun _ => rfl) with ⟨s', hs', hend⟩
    cases hs.symm.trans hs'
    exact (hyields.readsToEnd_iff n).mp hend
  · intro hlength n hn havailable earlier hfirst
    rw [hfirst honeShot]
    exact ⟨s, hs, (hyields.readsToEnd_iff n).mpr (hlength n hn havailable)⟩

variable {k : κ} {body : ByteString} {rewinds : Prop}

theorem Serves.replays_iff (hserves : impl.Serves k body rewinds)
    (hmany : impl.isOneShot k = false) : impl.Replays k ↔ rewinds := by
  constructor
  · rintro ⟨body', hreplays⟩
    by_contra hnot
    rcases hserves.broken hmany hnot with ⟨earlier, hbroken⟩
    rcases hreplays earlier with ⟨s, hs, hyields⟩
    rcases hbroken s hs with ⟨hnothing, hsome⟩
    rcases hserves.first with ⟨s', hs', hbody⟩
    rcases hreplays [] with ⟨s'', hs'', hyields'⟩
    cases hs'.symm.trans hs''
    exact hsome ((hbody.unique hyields').trans (hyields.unique hnothing))
  · intro hrewinds
    exact ⟨body, hserves.again hmany hrewinds⟩

theorem Serves.announces_iff (hserves : impl.Serves k body rewinds) :
    impl.AnnouncesLength k body.length ↔
      forall n, impl.length k = some n -> n ≤ body.length ->
        body.length = n ∧ (impl.isOneShot k = false -> rewinds) := by
  cases honeShot : impl.isOneShot k with
  | true =>
      rcases hserves.first with ⟨s, hs, hyields⟩
      rw [announcesLength_of_oneShot honeShot hs hyields]
      constructor
      · intro h n hn hle
        exact ⟨h n hn hle, fun hmany => (nomatch hmany)⟩
      · intro h n hn hle
        exact (h n hn hle).1
  | false =>
      by_cases hrewinds : rewinds
      · rw [announcesLength_of_replays (hserves.again honeShot hrewinds)]
        constructor
        · intro h n hn hle
          exact ⟨h n hn hle, fun _ => hrewinds⟩
        · intro h n hn hle
          exact (h n hn hle).1
      · constructor
        · intro hannounces n hn hle
          rcases hserves.first with ⟨s, hs, hyields⟩
          rcases hannounces n hn hle [] (fun _ => rfl) with ⟨s', hs', hend⟩
          cases hs.symm.trans hs'
          have hlength := (hyields.readsToEnd_iff n).mp hend
          rcases hserves.broken honeShot hrewinds with ⟨earlier, hbroken⟩
          have hmany : impl.isOneShot k = true -> earlier = [] := by
            intro hone
            rw [honeShot] at hone
            cases hone
          rcases hannounces n hn hle earlier hmany with ⟨s2, hs2, hend2⟩
          rcases hbroken s2 hs2 with ⟨hnothing, hsome⟩
          have hzero := (hnothing.readsToEnd_iff n).mp hend2
          exact absurd (List.length_eq_zero_iff.mp (hlength.trans hzero.symm)) hsome
        · intro h n hn hle
          exact absurd ((h n hn hle).2 rfl) hrewinds

/-- Another class that has its sources from this one, with the bytes changed in a way. -/
theorem Serves.transfer {κ' : Type} {impl' : ContentImpl κ'} {k' : κ'} {f : κ' -> κ}
    {g : ByteString -> ByteString} (hserves : impl.Serves (f k') body rewinds)
    (honeShot : impl'.isOneShot k' = impl.isOneShot (f k'))
    (hspan : forall earlier, (impl'.span earlier k').map f = impl.span earlier (f k'))
    (hyields : forall earlier s body, impl'.span earlier k' = some s ->
      impl.source.Yields (f s) body -> impl'.source.Yields s (g body))
    (hlength : forall body, (g body).length = body.length) :
    impl'.Serves k' (g body) rewinds := by
  have hback : forall earlier s, impl.span earlier (f k') = some s ->
      exists s', impl'.span earlier k' = some s' ∧ f s' = s := by
    intro earlier s hs
    rw [← hspan] at hs
    exact Option.map_eq_some_iff.mp hs
  refine ⟨?_, ?_, ?_⟩
  · rcases hserves.first with ⟨s, hs, hfirst⟩
    rcases hback [] s hs with ⟨s', hs', hsame⟩
    exact ⟨s', hs', hyields [] s' body hs' (hsame.symm ▸ hfirst)⟩
  · intro hmany hrewinds earlier
    rcases hserves.again (honeShot ▸ hmany) hrewinds earlier with ⟨s, hs, hagain⟩
    rcases hback earlier s hs with ⟨s', hs', hsame⟩
    exact ⟨s', hs', hyields earlier s' body hs' (hsame.symm ▸ hagain)⟩
  · intro hmany hnot
    rcases hserves.broken (honeShot ▸ hmany) hnot with ⟨earlier, hbroken⟩
    refine ⟨earlier, fun s' hs' => ?_⟩
    have hs : impl.span earlier (f k') = some (f s') := by
      rw [← hspan, hs', Option.map_some]
    rcases hbroken (f s') hs with ⟨hnothing, hsome⟩
    have hempty : g [] = [] := List.length_eq_zero_iff.mp (hlength [])
    refine ⟨hempty ▸ hyields earlier s' [] hs' hnothing, fun hg => hsome ?_⟩
    have hzero := hlength body
    rw [hg] at hzero
    exact List.length_eq_zero_iff.mp hzero.symm

end ContentImpl

/-!
# The classes of the SDK
-/

/-- A source over memory, for each attempt a new one. -/
def memoryContent (data : ByteString) : ContentImpl MemoryByteSourceState where
  length _ := some data.length
  isOneShot _ := false
  source := MemoryByteSource data
  spanSource _ := some MemoryByteSource.init

def StringContent (content : ByteString) : ContentImpl MemoryByteSourceState :=
  memoryContent content

def MemoryContent (content : ByteString) : ContentImpl MemoryByteSourceState :=
  memoryContent content

def EmptyContent : ContentImpl MemoryByteSourceState := memoryContent []

theorem memoryContent_replays (data : ByteString) (k : MemoryByteSourceState)
    (earlier : List (List Nat)) :
    exists s, (memoryContent data).span earlier k = some s ∧
      (memoryContent data).source.Yields s data := by
  refine @ContentImpl.replays_of_invariant _ _ (fun _ => True) _ ?_ _ trivial earlier
  intro k _
  exact ⟨_, rfl, (MemoryByteSource.fills data).yields MemoryByteSource.init,
    fun _ => trivial⟩

/-- The file is what is there when a source is taken. -/
def FileContent.impl (c : FileContent) (file : Option ByteString) :
    ContentImpl IStream where
  length _ := c.length
  isOneShot _ := false
  source := StreamSource
  spanSource _ := some (c.spanSource file).2

/-- What a source gives: nothing, where the file cannot be opened. -/
def FileContent.bytes (c : FileContent) (file : Option ByteString) : ByteString :=
  match file with
  | some content => content.drop c.off
  | none => []

theorem FileContent.left_bytes (c : FileContent) (file : Option ByteString) :
    (c.spanSource file).2.left = c.bytes file := by
  cases file with
  | none => rfl
  | some content => rfl

theorem FileContent.impl_replays (c : FileContent) (file : Option ByteString) (k : IStream)
    (earlier : List (List Nat)) :
    exists s, (c.impl file).span earlier k = some s ∧
      (c.impl file).source.Yields s (c.bytes file) := by
  refine @ContentImpl.replays_of_invariant _ _ (fun _ => True) _ ?_ _ trivial earlier
  intro k _
  refine ⟨_, rfl, ?_, fun _ => trivial⟩
  rw [← c.left_bytes file]
  exact StreamSource.fills.yields _

/-- The stream is read where it is: it is shared by the content and all of its sources. -/
def StreamContent.impl : ContentImpl StreamContent where
  length c := c.length
  isOneShot c := !c.seekable
  source :=
    { onRead := fun count c =>
        match c.content with
        | some is =>
            let (piece, is) := StreamSource.read count is
            (piece, { c with content := some is })
        | none => ([], c)
      iostate := fun c => ((c.content).getD nullStream).state
      onRead_le := by
        intro count c
        cases c.content with
        | none => exact Nat.zero_le _
        | some is => exact StreamSource.onRead_le count is }
  spanSource := StreamContent.spanSource

/-- What is left of the stream, if there is one. -/
def StreamContent.left (c : StreamContent) : ByteString :=
  match c.content with
  | some is => is.left
  | none => []

theorem StreamSource.read_same (count : Nat) (is : IStream) :
    (StreamSource.read count is).2.content = is.content ∧
      (StreamSource.read count is).2.canSeek = is.canSeek := by
  unfold StreamSource ByteSource.read IStream.read
  simp only
  split
  · exact ⟨rfl, rfl⟩
  · split
    · exact ⟨rfl, rfl⟩
    · exact ⟨rfl, rfl⟩

theorem StreamContent.fills : StreamContent.impl.source.Fills StreamContent.left where
  read count c := by
    rcases c with ⟨content, length, pos, seekable, spanned⟩
    cases content with
    | none => exact List.take_nil.symm
    | some is => exact StreamSource.fills.read count is
  rest count c := by
    rcases c with ⟨content, length, pos, seekable, spanned⟩
    cases content with
    | none => exact List.drop_nil.symm
    | some is => exact StreamSource.fills.rest count is

/-!
# What the classes serve
-/

theorem memoryContent_serves (data : ByteString) (k : MemoryByteSourceState) :
    (memoryContent data).Serves k data True where
  first := memoryContent_replays data k []
  again _ _ := memoryContent_replays data k
  broken _ hnot := absurd trivial hnot

theorem FileContent.impl_serves (c : FileContent) (file : Option ByteString) (k : IStream) :
    (c.impl file).Serves k (c.bytes file) True where
  first := c.impl_replays file k []
  again _ _ := c.impl_replays file k
  broken _ hnot := absurd trivial hnot

/-- A body for a single attempt serves what its first source gives. -/
theorem StreamContent.serves_oneShot {c : StreamContent} {rewinds : Prop}
    (honeShot : c.seekable = false) : StreamContent.impl.Serves c c.left rewinds where
  first := by
    refine ⟨{ c with spanned := true }, ?_, StreamContent.fills.yields _⟩
    unfold StreamContent.impl StreamContent.spanSource
    simp only [honeShot, Bool.and_false, Bool.false_eq_true, if_false]
  again hmany := by
    change (!c.seekable) = false at hmany
    rw [honeShot] at hmany
    cases hmany
  broken hmany := by
    change (!c.seekable) = false at hmany
    rw [honeShot] at hmany
    cases hmany

/-- A seekable content that has been read is set back, with the stream that it has. -/
structure Rewound (is : IStream) (length : Option Nat) (pos : Int) (c : StreamContent) :
    Prop where
  content : exists is', c.content = some is' ∧ is'.content = is.content ∧
    is'.canSeek = is.canSeek
  length : c.length = length
  pos : c.pos = pos
  seekable : c.seekable = true
  fresh : c.spanned = false -> c.content = some is

theorem Rewound.read {is : IStream} {length : Option Nat} {pos : Int} {c : StreamContent}
    (hrewound : Rewound is length pos c) (hspanned : c.spanned = true) (count : Nat) :
    Rewound is length pos (StreamContent.impl.source.read count c).2 ∧
      (StreamContent.impl.source.read count c).2.spanned = true := by
  rcases hrewound.content with ⟨is', hcontent, hbytes, hseek⟩
  rcases StreamSource.read_same count is' with ⟨hbytes', hseek'⟩
  have hread : (StreamContent.impl.source.read count c).2 =
      { c with content := some (StreamSource.read count is').2 } := by
    unfold StreamContent.impl ByteSource.read
    simp only [hcontent]
  rw [hread]
  refine ⟨⟨⟨_, rfl, hbytes'.trans hbytes, hseek'.trans hseek⟩, hrewound.length, hrewound.pos,
    hrewound.seekable, fun hfresh => ?_⟩, hspanned⟩
  rw [hspanned] at hfresh
  cases hfresh

theorem Rewound.reads {is : IStream} {length : Option Nat} {pos : Int} {c : StreamContent}
    (hrewound : Rewound is length pos c) (hspanned : c.spanned = true) (counts : List Nat) :
    Rewound is length pos (StreamContent.impl.source.reads counts c).2 := by
  have hinvariant : Rewound is length pos (StreamContent.impl.source.reads counts c).2 ∧
      (StreamContent.impl.source.reads counts c).2.spanned = true :=
    @ByteSource.reads_invariant _ StreamContent.impl.source
      (fun c => Rewound is length pos c ∧ c.spanned = true)
      (fun count r hr => hr.1.read hr.2 count) counts c ⟨hrewound, hspanned⟩
  exact hinvariant.1

/-- A source begins in the stream as it is at first, and where it is set back later on. -/
theorem Rewound.spanSource {is : IStream} {length : Option Nat} {pos : Int}
    {c : StreamContent} (hrewound : Rewound is length pos c) :
    exists s, StreamContent.impl.spanSource c = some s ∧ Rewound is length pos s ∧
      s.spanned = true ∧
      (s.content = some is ∨ exists is' : IStream,
        s.content = some (is'.clear.seekg pos) ∧ is'.content = is.content ∧
          is'.canSeek = is.canSeek) := by
  rcases hrewound.content with ⟨is', hcontent, hbytes, hseek⟩
  cases hspanned : c.spanned with
  | false =>
      have hspan : StreamContent.impl.spanSource c = some { c with spanned := true } := by
        change StreamContent.spanSource c = _
        unfold StreamContent.spanSource
        rw [hspanned, Bool.false_and, if_neg Bool.false_ne_true]
      refine ⟨_, hspan, ⟨⟨is', hcontent, hbytes, hseek⟩, hrewound.length, hrewound.pos,
        hrewound.seekable, fun hfresh => (nomatch hfresh)⟩, rfl, Or.inl ?_⟩
      exact hrewound.fresh hspanned
  | true =>
      have hspan : StreamContent.impl.spanSource c =
          some { c with content := some (is'.clear.seekg pos), spanned := true } := by
        change StreamContent.spanSource c = _
        unfold StreamContent.spanSource
        rw [hspanned, hrewound.seekable, Bool.true_and, if_pos rfl, hcontent, hrewound.pos]
        rfl
      have hsame : (is'.clear.seekg pos).content = is.content ∧
          (is'.clear.seekg pos).canSeek = is.canSeek := by
        unfold IStream.seekg IStream.seekTo
        simp only
        split
        · split
          · exact ⟨hbytes, hseek⟩
          · exact ⟨hbytes, hseek⟩
        · exact ⟨hbytes, hseek⟩
      exact ⟨_, hspan, ⟨⟨_, rfl, hsame.1, hsame.2⟩, hrewound.length, hrewound.pos,
        hrewound.seekable, fun hfresh => (nomatch hfresh)⟩, rfl,
        Or.inr ⟨is', rfl, hbytes, hseek⟩⟩

/-- All sources of a seekable content begin with the same bytes, if the first two do. -/
theorem StreamContent.replays_of_rewound {is : IStream} {length : Option Nat} {pos : Int}
    (hback : forall is' : IStream, is'.content = is.content -> is'.canSeek = is.canSeek ->
      (is'.clear.seekg pos).left = is.left)
    {c : StreamContent} (hc : Rewound is length pos c) (earlier : List (List Nat)) :
    exists s, StreamContent.impl.span earlier c = some s ∧
      StreamContent.impl.source.Yields s is.left := by
  refine @ContentImpl.replays_of_invariant _ _ (Rewound is length pos) _ ?_ _ hc earlier
  intro c hc
  rcases hc.spanSource with ⟨s, hs, hrewound, hspanned, hbegins⟩
  refine ⟨s, hs, ?_, hrewound.reads hspanned⟩
  have hleft : StreamContent.left s = is.left := by
    unfold StreamContent.left
    rcases hbegins with hfirst | ⟨is', hlater, hbytes, hseek⟩
    · rw [hfirst]
    · rw [hlater]
      exact hback is' hbytes hseek
  rw [← hleft]
  exact StreamContent.fills.yields s

theorem IStream.left_clear_seekg {is : IStream} (hseek : is.canSeek = true) (pos : Nat) :
    (is.clear.seekg pos).left = is.content.drop pos := by
  have hseekg : is.clear.seekg pos = { is with pos := pos, state := IoState.goodbit } := by
    unfold IStream.seekg IStream.seekTo IStream.clear
    rw [if_pos (Int.natCast_nonneg pos), hseek]
    rfl
  rw [hseekg]
  rfl

/-- There is no place in front of the first byte. -/
theorem IStream.left_clear_seekg_before (is : IStream) : (is.clear.seekg (-1)).left = [] := rfl

/-- The constructor leaves a good stream that can be sought in where it was. -/
theorem StreamContent.init_seekable {is : IStream} (hgood : is.good = true)
    (hseek : is.canSeek = true) :
    StreamContent.init (some is) =
      ⟨some is, some (((is.content.length : Int) - is.pos) % 2 ^ 64).toNat, is.pos, true,
        false⟩ := by
  rcases is with ⟨content, pos, ⟨eof, failbit, badbit⟩, canSeek⟩
  cases hseek
  cases eof with
  | true => cases hgood
  | false =>
      cases badbit with
      | true => cases hgood
      | false =>
          cases failbit with
          | true => cases hgood
          | false =>
              have hpos : ¬ (pos : Int) = -1 := by omega
              unfold StreamContent.init IStream.tellg IStream.seekEnd IStream.seekTo
                IStream.seekg IStream.seekTo
              simp [IStream.good, IoState.fail, hpos]

/-- Any other stream is for a single attempt. -/
theorem StreamContent.init_oneShot {is : IStream}
    (hnot : is.good = false ∨ is.canSeek = false) :
    (StreamContent.init (some is)).seekable = false ∧
      (StreamContent.init (some is)).length = none ∧
      (StreamContent.init (some is)).left = is.left := by
  rcases is with ⟨content, pos, ⟨eof, failbit, badbit⟩, canSeek⟩
  cases eof <;> cases failbit <;> cases badbit <;> cases canSeek <;>
    first
    | exact ⟨rfl, rfl, rfl⟩
    | (rcases hnot with hbad | hpipe
       · cases hbad
       · cases hpipe)

end OssSdk
