import OssSdk.Crypto.AesCtrContentCipher
import OssSdk.Internal.UploadChecksum

/-!
# The bodies of requests

Every way to make a body: the classes of the interface, the tee that the client puts around
a body, and the content that an encryption client makes of one.
-/

namespace OssSdk
namespace Client

open Crypto
open Foundation
open Internal
open StreamCipher

variable {κ : Type}

/-- A key and a vector that the platform can encrypt with. -/
structure ContentKey where
  aes : BlockCipher
  key : ByteString
  iv : ByteString
  works : aes.Works key
  iv_length : iv.length = 16
  valid : validKeyIV key iv = true

/-- `CryptoByteContent`: every source has a cipher of its own. -/
def cryptoContent (c : ContentKey) (inner : ContentImpl κ) :
    ContentImpl (CryptoByteSourceState κ) where
  length s := inner.length s.inner
  isOneShot s := inner.isOneShot s.inner
  source := CryptoByteSource c.aes inner.source
  spanSource s :=
    (inner.spanSource s.inner).map fun r =>
      { inner := r
        cipher := AesCtrCipher.create c.aes c.key c.iv
        cipherError := false }

/-- The calls that make a body. -/
inductive Construction where
  | StringContent (content : ByteString)
  | MemoryContent (content : ByteString)
  | EmptyContent
  /-- The file when the content is made, and when its sources are. -/
  | FileContent (file opened : Option ByteString) (off : Nat) (length : Option Nat)
  | StreamContent (content : Option IStream)
  /-- With `seekable`, and a length or none. -/
  | StreamContentTold (content : Option IStream) (seekable : Bool) (length : Option Nat)
  | TeeByteContent (source : Construction) (sinks : List (Option (StreamObserver
      UploadObservers))) (observers : UploadObservers)
  | CryptoByteContent (inner : Construction) (c : ContentKey)

/-- An object of a class. -/
structure Body where
  κ : Type
  impl : ContentImpl κ
  state : κ

def Construction.make : Construction -> Body
  | .StringContent content => ⟨_, OssSdk.StringContent content, MemoryByteSource.init⟩
  | .MemoryContent content => ⟨_, OssSdk.MemoryContent content, MemoryByteSource.init⟩
  | .EmptyContent => ⟨_, OssSdk.EmptyContent, MemoryByteSource.init⟩
  | .FileContent file opened off length =>
      ⟨_, (FileContent.init file off length).impl opened, nullStream⟩
  | .StreamContent content => ⟨_, StreamContent.impl, StreamContent.init content⟩
  | .StreamContentTold content seekable length =>
      ⟨_, StreamContent.impl, StreamContent.told content seekable length⟩
  | .TeeByteContent source sinks observers =>
      ⟨_, Internal.TeeByteContent source.make.impl sinks,
        TeeState.made source.make.state observers⟩
  | .CryptoByteContent inner c =>
      ⟨_, cryptoContent c inner.make.impl, ⟨inner.make.state, none, false⟩⟩

namespace Construction

def isOneShot (c : Construction) : Bool := c.make.impl.isOneShot c.make.state

def length (c : Construction) : Option Nat := c.make.impl.length c.make.state

/-- What is left of a stream, if there is one. -/
def leftOf (content : Option IStream) : ByteString := (content.map IStream.left).getD []

/-- The bytes that the first source of the body gives. -/
def body : Construction -> ByteString
  | .StringContent content => content
  | .MemoryContent content => content
  | .EmptyContent => []
  | .FileContent file opened off length => (FileContent.init file off length).bytes opened
  | .StreamContent content => leftOf content
  | .StreamContentTold content _ _ => leftOf content
  | .TeeByteContent source _ _ => source.body
  | .CryptoByteContent inner c => mask (c.aes.keystream c.key c.iv) 0 inner.body

/--
There is a stream to set back, if the content is one that is set back.  One that has only
been told so does not know its place, and there must be nothing in it.
-/
def Rewinds : Construction -> Prop
  | .StreamContent content => content.isSome = true
  | .StreamContentTold content seekable _ =>
      seekable = true -> content.isSome = true ∧ leftOf content = []
  | .TeeByteContent source _ _ => source.Rewinds
  | .CryptoByteContent inner _ => inner.Rewinds
  | _ => True

/-- Files are as they were when the contents were made. -/
def Unchanged : Construction -> Prop
  | .FileContent file opened _ _ => opened = file
  | .TeeByteContent source _ _ => source.Unchanged
  | .CryptoByteContent inner _ => inner.Unchanged
  | _ => True

/--
A length that is given does not stop before the end of the file or of the stream, if they
go on as far as that; a stream that the length is found of has less than `2 ^ 64` bytes.
And the body rewinds.
-/
def Announces : Construction -> Prop
  | .FileContent (some file) _ off (some length) => file.length ≤ min off file.length + length
  | .StreamContent none => False
  | .StreamContent (some is) =>
      is.good = true -> is.canSeek = true -> is.content.length - is.pos < 2 ^ 64
  | .StreamContentTold content seekable (some length) =>
      length ≤ (leftOf content).length ->
        (leftOf content).length ≤ length ∧
          (seekable = true -> content.isSome = true ∧ leftOf content = [])
  | .TeeByteContent source _ _ => source.Announces
  | .CryptoByteContent inner _ => inner.Announces
  | _ => True

end Construction

/-!
# Contents around other contents
-/

theorem TeeByteContent.serves {content : ContentImpl κ}
    {sinks : List (Option (StreamObserver UploadObservers))} {k : κ}
    {observers : UploadObservers} {body : ByteString} {rewinds : Prop}
    (hserves : content.Serves k body rewinds) :
    (Internal.TeeByteContent content sinks).Serves (TeeState.made k observers) body
      rewinds := by
  refine @ContentImpl.Serves.transfer _ _ _ _ _ _ _ TeeState.source id hserves rfl ?_ ?_
    (fun _ => rfl)
  · intro earlier
    exact TeeByteContent.span_source earlier _
  · intro earlier s body _ hyields
    exact TeeByteSource.yields_iff.mpr hyields

theorem CryptoByteSource.yields {c : ContentKey} {source : ByteSource κ}
    {s : CryptoByteSourceState κ} {body : ByteString}
    (hcipher : s.cipher = AesCtrCipher.create c.aes c.key c.iv)
    (hyields : source.Yields s.inner body) :
    (CryptoByteSource c.aes source).Yields s (mask (c.aes.keystream c.key c.iv) 0 body) := by
  have hat : AesCtrCipher.At c.aes c.key c.iv 0 s.cipher := by
    rw [hcipher]
    exact AesCtrCipher.create_at c.works c.iv_length c.valid
  intro counts
  rw [CryptoByteSource.reads_eq c.works c.iv_length source counts hat, hyields counts,
    mask_take]

theorem cryptoContent_serves {content : ContentImpl κ} {k : κ} {body : ByteString}
    {rewinds : Prop} (hserves : content.Serves k body rewinds) (c : ContentKey) :
    (cryptoContent c content).Serves ⟨k, none, false⟩
      (mask (c.aes.keystream c.key c.iv) 0 body) rewinds := by
  have hspan : forall s : CryptoByteSourceState κ,
      ((cryptoContent c content).spanSource s).map CryptoByteSourceState.inner =
        content.spanSource s.inner := by
    intro s
    change ((content.spanSource s.inner).map _).map _ = content.spanSource s.inner
    rw [Option.map_map]
    exact Option.map_id'
  have hread : forall count (s : CryptoByteSourceState κ),
      ((cryptoContent c content).source.read count s).2.inner =
        (content.source.read count s.inner).2 := by
    intro count s
    unfold cryptoContent CryptoByteSource ByteSource.read
    simp only
    split
    · rfl
    · rfl
  refine @ContentImpl.Serves.transfer _ _ _ _ _ _ _ CryptoByteSourceState.inner
    (mask (c.aes.keystream c.key c.iv) 0) hserves rfl ?_ ?_ (length_mask _ _)
  · exact fun earlier => ContentImpl.span_map hspan hread earlier _
  · intro earlier s body hs hyields
    refine CryptoByteSource.yields ?_ hyields
    rcases Option.bind_eq_some_iff.mp hs with ⟨t, _, hlast⟩
    rcases Option.map_eq_some_iff.mp hlast with ⟨r, _, hsame⟩
    rw [← hsame]

/-!
# What every body serves
-/

theorem serves_streamContent (content : Option IStream) :
    StreamContent.impl.Serves (StreamContent.init content) (Construction.leftOf content)
      (content.isSome = true) := by
  cases content with
  | none =>
      refine ⟨⟨_, rfl, StreamContent.fills.yields _⟩, fun _ hsome => (nomatch hsome),
        fun _ _ => ⟨[[]], fun s hs => ?_⟩⟩
      cases hs
  | some is =>
      by_cases hrewinds : is.good = true ∧ is.canSeek = true
      · rcases hrewinds with ⟨hgood, hseek⟩
        have hinit := StreamContent.init_seekable hgood hseek
        have hback : forall is' : IStream, is'.content = is.content ->
            is'.canSeek = is.canSeek -> (is'.clear.seekg is.pos).left = is.left := by
          intro is' hbytes hseek'
          rw [IStream.left_clear_seekg (hseek'.trans hseek), hbytes,
            IStream.left_good hgood]
        have hrewound : Rewound is (StreamContent.init (some is)).length is.pos
            (StreamContent.init (some is)) := by
          rw [hinit]
          exact ⟨⟨is, rfl, rfl, rfl⟩, rfl, rfl, rfl, fun _ => rfl⟩
        have hall := StreamContent.replays_of_rewound hback hrewound
        exact ⟨hall [], fun _ _ => hall, fun _ hnot => absurd rfl hnot⟩
      · have hnot : is.good = false ∨ is.canSeek = false := by
          cases hgood : is.good with
          | false => exact Or.inl rfl
          | true => exact Or.inr (Bool.not_eq_true _ ▸ fun hseek => hrewinds ⟨hgood, hseek⟩)
        rcases StreamContent.init_oneShot hnot with ⟨honeShot, _, hleft⟩
        have hserves := @StreamContent.serves_oneShot _ (some is).isSome honeShot
        rw [hleft] at hserves
        exact hserves

theorem serves_streamContentTold (content : Option IStream) (seekable : Bool)
    (length : Option Nat) :
    StreamContent.impl.Serves (StreamContent.told content seekable length)
      (Construction.leftOf content)
      (seekable = true -> content.isSome = true ∧ Construction.leftOf content = []) := by
  cases seekable with
  | false =>
      have hserves := @StreamContent.serves_oneShot (StreamContent.told content false length)
        (false = true -> content.isSome = true ∧ Construction.leftOf content = []) rfl
      cases content with
      | none => exact hserves
      | some is => exact hserves
  | true =>
      cases content with
      | none =>
          refine ⟨⟨_, rfl, StreamContent.fills.yields _⟩, fun _ hsome => ?_,
            fun _ _ => ⟨[[]], fun s hs => ?_⟩⟩
          · cases (hsome rfl).1
          · cases hs
      | some is =>
          have hrewound : Rewound is length (-1)
              (StreamContent.told (some is) true length) :=
            ⟨⟨is, rfl, rfl, rfl⟩, rfl, rfl, rfl, fun _ => rfl⟩
          refine ⟨⟨_, rfl, StreamContent.fills.yields _⟩, ?_, ?_⟩
          · intro _ hrewinds earlier
            have hempty : is.left = [] := (hrewinds rfl).2
            refine StreamContent.replays_of_rewound ?_ hrewound earlier
            intro is' _ _
            rw [IStream.left_clear_seekg_before, hempty]
          · intro _ hnot
            refine ⟨[[]], fun s hs => ?_⟩
            cases hs
            refine ⟨StreamContent.fills.yields _, fun hempty => hnot fun _ => ?_⟩
            exact ⟨rfl, hempty⟩

theorem Construction.serves (c : Construction) :
    c.make.impl.Serves c.make.state c.body c.Rewinds := by
  induction c with
  | StringContent content => exact memoryContent_serves content _
  | MemoryContent content => exact memoryContent_serves content _
  | EmptyContent => exact memoryContent_serves [] _
  | FileContent file opened off length => exact FileContent.impl_serves _ opened _
  | StreamContent content => exact serves_streamContent content
  | StreamContentTold content seekable length =>
      exact serves_streamContentTold content seekable length
  | TeeByteContent source sinks observers ih => exact TeeByteContent.serves ih
  | CryptoByteContent inner c ih => exact cryptoContent_serves ih c

/-- A body for a single attempt is not set back. -/
theorem Construction.rewinds_of_oneShot {c : Construction} (honeShot : c.isOneShot = true) :
    c.Rewinds := by
  induction c with
  | StringContent content => cases honeShot
  | MemoryContent content => cases honeShot
  | EmptyContent => cases honeShot
  | FileContent file opened off length => cases honeShot
  | StreamContent content =>
      cases content with
      | none => cases honeShot
      | some is => exact rfl
  | StreamContentTold content seekable length =>
      intro hseekable
      rw [hseekable] at honeShot
      cases honeShot
  | TeeByteContent source sinks observers ih => exact ih honeShot
  | CryptoByteContent inner c ih => exact ih honeShot

/--
A body that may be sent again gives the same bytes at every attempt, without looking for a
stream that is missing, exactly where it rewinds.
-/
theorem replayable_replays_iff (c : Construction) :
    (c.isOneShot = false -> c.make.impl.Replays c.make.state) ↔ c.Rewinds := by
  constructor
  · intro hreplays
    cases honeShot : c.isOneShot with
    | true => exact Construction.rewinds_of_oneShot honeShot
    | false => exact (c.serves.replays_iff honeShot).mp (hreplays honeShot)
  · intro hrewinds hmany
    exact (c.serves.replays_iff hmany).mpr hrewinds

/-- The second source of a stream that is said to be seekable gives nothing. -/
theorem not_replays_toldSeekable :
    (Construction.StreamContentTold (some ⟨[1, 2, 3], 0, IoState.goodbit, true⟩) true
        (some 3)).isOneShot = false ∧
      ¬ (Construction.StreamContentTold (some ⟨[1, 2, 3], 0, IoState.goodbit, true⟩) true
        (some 3)).make.impl.Replays
          (Construction.StreamContentTold (some ⟨[1, 2, 3], 0, IoState.goodbit, true⟩) true
            (some 3)).make.state := by
  refine ⟨rfl, fun hreplays => ?_⟩
  rcases hreplays with ⟨body, hbody⟩
  rcases hbody [] with ⟨s, hs, hfirst⟩
  rcases hbody [[3]] with ⟨s', hs', hsecond⟩
  cases hs
  cases hs'
  have hthree : [1, 2, 3] = body.take 3 := hfirst [3]
  have hnone : [] = body.take 3 := hsecond [3]
  rw [← hnone] at hthree
  cases hthree

/-!
# The lengths that are announced
-/

/-- The length is that of the bytes, if it is not more than that, and the body rewinds. -/
def Construction.Fits (c : Construction) : Prop :=
  forall n, c.length = some n -> n ≤ c.body.length ->
    c.body.length = n ∧ (c.isOneShot = false -> c.Rewinds)

theorem fits_fileContent (file : Option ByteString) (off : Nat) (length : Option Nat) :
    (Construction.FileContent file file off length).Fits ↔
      (Construction.FileContent file file off length).Announces := by
  unfold Construction.Fits
  cases file with
  | none => exact ⟨fun _ => trivial, fun _ n hn => (nomatch hn)⟩
  | some content =>
      have hoff : (FileContent.init (some content) off length).off =
          min off content.length := by
        unfold FileContent.init
        simp only
        split
        · rename_i hless
          exact (min_eq_right (Nat.le_of_lt hless)).symm
        · rename_i hless
          exact (min_eq_left (Nat.not_lt.mp hless)).symm
      have hbody : (Construction.FileContent (some content) (some content) off
          length).body.length = content.length - min off content.length := by
        unfold Construction.body FileContent.bytes
        rw [List.length_drop, hoff]
      have hless : min off content.length ≤ content.length := min_le_right _ _
      rw [hbody]
      cases length with
      | none =>
          have hlength : (Construction.FileContent (some content) (some content) off
              none).length = some (content.length - min off content.length) := by
            rw [← hoff]
            rfl
          rw [hlength]
          refine ⟨fun _ => trivial, fun _ n hn _ => ?_⟩
          exact ⟨Option.some.inj hn, fun _ => trivial⟩
      | some given =>
          have hlength : (Construction.FileContent (some content) (some content) off
              (some given)).length =
                some (min (content.length - min off content.length) given) := by
            rw [← hoff]
            rfl
          rw [hlength]
          change _ ↔ content.length ≤ min off content.length + given
          constructor
          · intro hfits
            have hall := (hfits _ rfl (min_le_left _ _)).1
            have hgiven := min_le_right (content.length - min off content.length) given
            omega
          · intro hgiven n hn _
            have hall : min (content.length - min off content.length) given =
                content.length - min off content.length := min_eq_left (by omega)
            rw [hall] at hn
            exact ⟨Option.some.inj hn, fun _ => trivial⟩

theorem fits_streamContent (content : Option IStream) :
    (Construction.StreamContent content).Fits ↔
      (Construction.StreamContent content).Announces := by
  unfold Construction.Fits
  cases content with
  | none =>
      constructor
      · intro hfits
        have hrewinds := (hfits 0 rfl (Nat.zero_le _)).2 rfl
        cases hrewinds
      · intro hfalse
        exact hfalse.elim
  | some is =>
      change _ ↔ (is.good = true -> is.canSeek = true ->
        is.content.length - is.pos < 2 ^ 64)
      by_cases hseekable : is.good = true ∧ is.canSeek = true
      · rcases hseekable with ⟨hgood, hseek⟩
        have hinit := StreamContent.init_seekable hgood hseek
        have hlength : (Construction.StreamContent (some is)).length =
            some (((is.content.length : Int) - is.pos) % 2 ^ 64).toNat := by
          change (StreamContent.init (some is)).length = _
          rw [hinit]
        have hbody : (Construction.StreamContent (some is)).body.length =
            is.content.length - is.pos := by
          change is.left.length = _
          rw [IStream.left_good hgood, List.length_drop]
        rw [hlength, hbody]
        constructor
        · intro hfits _ _
          by_contra hlarge
          have hmod : (((is.content.length : Int) - is.pos) % 2 ^ 64).toNat < 2 ^ 64 := by
            omega
          have hall := (hfits _ rfl (by omega)).1
          omega
        · intro hless n hn hle
          have hsmall := hless hgood hseek
          cases hn
          refine ⟨?_, fun _ => rfl⟩
          omega
      · have hnot : is.good = false ∨ is.canSeek = false := by
          cases hgood : is.good with
          | false => exact Or.inl rfl
          | true => exact Or.inr (Bool.not_eq_true _ ▸ fun hseek => hseekable ⟨hgood, hseek⟩)
        have hlength : (Construction.StreamContent (some is)).length = none :=
          (StreamContent.init_oneShot hnot).2.1
        rw [hlength]
        refine ⟨fun _ hgood hseek => absurd ⟨hgood, hseek⟩ hseekable, fun _ n hn => ?_⟩
        cases hn

theorem fits_streamContentTold (content : Option IStream) (seekable : Bool)
    (length : Option Nat) :
    (Construction.StreamContentTold content seekable length).Fits ↔
      (Construction.StreamContentTold content seekable length).Announces := by
  unfold Construction.Fits
  cases length with
  | none => exact ⟨fun _ => trivial, fun _ n hn => (nomatch hn)⟩
  | some length =>
      change _ ↔ (length ≤ (Construction.leftOf content).length ->
        (Construction.leftOf content).length ≤ length ∧
          (seekable = true -> content.isSome = true ∧ Construction.leftOf content = []))
      constructor
      · intro hfits hle
        rcases hfits length rfl hle with ⟨hlength, hrewinds⟩
        refine ⟨Nat.le_of_eq hlength, fun hseekable => hrewinds ?_ hseekable⟩
        rw [hseekable]
        rfl
      · intro hannounces n hn hle
        cases hn
        rcases hannounces hle with ⟨hge, hrewinds⟩
        exact ⟨Nat.le_antisymm hge hle, fun _ => hrewinds⟩

theorem Construction.fits_iff {c : Construction} (hunchanged : c.Unchanged) :
    c.Fits ↔ c.Announces := by
  induction c with
  | StringContent content =>
      refine ⟨fun _ => trivial, fun _ n hn _ => ?_⟩
      exact ⟨Option.some.inj hn, fun _ => trivial⟩
  | MemoryContent content =>
      refine ⟨fun _ => trivial, fun _ n hn _ => ?_⟩
      exact ⟨Option.some.inj hn, fun _ => trivial⟩
  | EmptyContent =>
      refine ⟨fun _ => trivial, fun _ n hn _ => ?_⟩
      exact ⟨Option.some.inj hn, fun _ => trivial⟩
  | FileContent file opened off length =>
      have hsame : opened = file := hunchanged
      rw [hsame]
      exact fits_fileContent file off length
  | StreamContent content => exact fits_streamContent content
  | StreamContentTold content seekable length =>
      exact fits_streamContentTold content seekable length
  | TeeByteContent source sinks observers ih => exact ih hunchanged
  | CryptoByteContent inner c ih =>
      have hlength : (Construction.CryptoByteContent inner c).body.length =
          inner.body.length := length_mask _ _ _
      have hinner := ih hunchanged
      unfold Construction.Fits at hinner ⊢
      rw [hlength]
      exact hinner

/--
A body announces the number of bytes that its sources give, the files being as they were
and there being as many bytes as that, exactly where its length does not stop before the
end of what there is.
-/
theorem announcesLength_iff (c : Construction) :
    (c.Unchanged -> c.make.impl.AnnouncesLength c.make.state c.body.length) ↔
      (c.Unchanged -> c.Announces) := by
  constructor
  · intro hannounces hunchanged
    exact (Construction.fits_iff hunchanged).mp
      (c.serves.announces_iff.mp (hannounces hunchanged))
  · intro hannounces hunchanged
    exact c.serves.announces_iff.mpr
      ((Construction.fits_iff hunchanged).mpr (hannounces hunchanged))

/-- Two bytes of a file of three are announced, and its source gives all three. -/
theorem not_announcesLength_part :
    (Construction.FileContent (some [1, 2, 3]) (some [1, 2, 3]) 0 (some 2)).Unchanged ∧
      ¬ (Construction.FileContent (some [1, 2, 3]) (some [1, 2, 3]) 0
        (some 2)).make.impl.AnnouncesLength
          (Construction.FileContent (some [1, 2, 3]) (some [1, 2, 3]) 0
            (some 2)).make.state 3 := by
  refine ⟨rfl, fun hannounces => ?_⟩
  rcases hannounces 2 rfl (by decide) [] (fun _ => rfl) with ⟨s, hs, hend⟩
  cases hs
  have hlength := hend [3] 1 Nat.one_pos rfl
  revert hlength
  decide +kernel

end Client
end OssSdk
