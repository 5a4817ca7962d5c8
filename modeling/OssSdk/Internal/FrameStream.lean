import OssSdk.Internal.FrameParser

/-!
# The frames of what has been taken in

Where nothing is refused, what has become of a stream does not depend on the
chunks it came in.
-/

namespace OssSdk
namespace Internal

open Foundation

variable {ω ω' σ ρ : Type}

/-!
# One frame
-/

section Frame

variable {A : FrameActions ω σ} {a : Deframer σ} {p q chunk : ByteString}

theorem ownBytes_unfinished (hunfinished : SelectFraming.Partial (p ++ chunk)) :
    FrameActions.ownBytes p chunk = chunk := by
  unfold Framing.Partial at hunfinished
  rw [List.length_append] at hunfinished
  refine List.take_of_length_le ?_
  omega

theorem ownBytes_whole (rest : ByteString)
    (hwhole : SelectFraming.Whole (p ++ q)) :
    FrameActions.ownBytes p (q ++ rest) = q := by
  have hlength := Framing.length_append rest (Framing.header_of_whole hwhole)
  unfold Framing.Whole at hwhole
  unfold FrameActions.ownBytes
  rw [← List.append_assoc, hlength, ← hwhole, List.length_append,
    Nat.add_sub_cancel_left, List.take_left]

theorem takeFrame_partial
    (hunfinished : SelectFraming.Partial (a.pending ++ chunk)) :
    A.takeFrame a chunk =
      match A.handOn a.pending chunk a.env with
      | (false, env) => ({ a with env := env }.refuse, [])
      | (true, env) =>
          ({ a with pending := a.pending ++ chunk, env := env }, []) := by
  rcases hpass : A.handOn a.pending chunk a.env with ⟨taken, env⟩
  cases taken with
  | false => simp only [FrameActions.takeFrame, ownBytes_unfinished hunfinished, hpass]
  | true =>
      simp only [FrameActions.takeFrame, ownBytes_unfinished hunfinished, hpass,
        if_pos hunfinished]

theorem takeFrame_whole (rest : ByteString)
    (hwhole : SelectFraming.Whole (a.pending ++ q)) :
    A.takeFrame a (q ++ rest) =
      match A.handOn a.pending q a.env with
      | (false, env) => ({ a with env := env }.refuse, [])
      | (true, env) =>
          if SelectFrame.checksumHolds (a.pending ++ q) then
            ({ a with
                frames := a.frames ++ [a.pending ++ q]
                pending := []
                env := env },
              rest)
          else ({ a with env := env }.mismatch, []) := by
  rcases hpass : A.handOn a.pending q a.env with ⟨taken, env⟩
  cases taken with
  | false => simp only [FrameActions.takeFrame, ownBytes_whole rest hwhole, hpass]
  | true =>
      simp only [FrameActions.takeFrame, ownBytes_whole rest hwhole, hpass,
        if_neg (Framing.not_partial_of_whole hwhole), List.drop_left]

/-- What can come of taking a frame. -/
inductive Taken (A : FrameActions ω σ) (a : Deframer σ) (chunk : ByteString) :
    Deframer σ -> ByteString -> Prop where
  | refused {a' : Deframer σ} :
      (A.handOn a.pending (FrameActions.ownBytes a.pending chunk) a.env).1 =
        false ->
      a'.fault = true -> Taken A a chunk a' []
  | mismatch {a' : Deframer σ} (q rest : ByteString) :
      chunk = q ++ rest -> q ≠ [] -> SelectFraming.Whole (a.pending ++ q) ->
      SelectFrame.checksumHolds (a.pending ++ q) = false ->
      a'.fault = true -> Taken A a chunk a' []
  | part {a' : Deframer σ} :
      SelectFraming.Partial (a.pending ++ chunk) ->
      a'.fault = false -> a'.frames = a.frames ->
      a'.pending = a.pending ++ chunk -> Taken A a chunk a' []
  | whole {a' : Deframer σ} (q rest : ByteString) :
      chunk = q ++ rest -> q ≠ [] -> SelectFraming.Whole (a.pending ++ q) ->
      SelectFrame.checksumHolds (a.pending ++ q) = true ->
      a'.fault = false -> a'.frames = a.frames ++ [a.pending ++ q] ->
      a'.pending = [] -> Taken A a chunk a' rest

theorem takeFrame_taken
    (hfault : a.fault = false)
    (hunfinished : SelectFraming.Partial a.pending) :
    Taken A a chunk (A.takeFrame a chunk).1 (A.takeFrame a chunk).2 := by
  rcases hpass : A.handOn a.pending
    (FrameActions.ownBytes a.pending chunk) a.env with ⟨taken, env⟩
  rcases hunfinished.append_cases chunk with hstill | ⟨q, rest, hsplit, hq, hwhole⟩
  · have hframe := takeFrame_partial (A := A) hstill
    rw [ownBytes_unfinished hstill] at hpass
    rw [hpass] at hframe
    rw [hframe]
    cases taken with
    | false =>
        refine .refused ?_ rfl
        rw [ownBytes_unfinished hstill, hpass]
    | true => exact .part hstill hfault rfl rfl
  · have hframe := takeFrame_whole (A := A) rest hwhole
    rw [← hsplit] at hframe
    have hown : FrameActions.ownBytes a.pending chunk = q := by
      rw [hsplit]
      exact ownBytes_whole rest hwhole
    rw [hown] at hpass
    rw [hpass] at hframe
    rw [hframe]
    cases taken with
    | false =>
        refine .refused ?_ rfl
        rw [hown, hpass]
    | true =>
        cases hholds : SelectFrame.checksumHolds (a.pending ++ q) with
        | false =>
            simp only [Bool.false_eq_true, if_false]
            exact .mismatch q rest hsplit hq hwhole hholds rfl
        | true =>
            simp only [if_true]
            exact .whole q rest hsplit hq hwhole hholds hfault rfl rfl

end Frame

/-!
# The frames of a chunk
-/

section Frames

variable {A : FrameActions ω σ} {a : Deframer σ} {chunk : ByteString}

/-- Between two calls the bytes at hand do not make a whole frame. -/
def Deframer.Between (a : Deframer σ) : Prop :=
  a.fault = false -> SelectFraming.Partial a.pending

theorem Deframer.between_init (env : σ) : (Deframer.init env).Between :=
  fun _ => Framing.partial_nil

theorem takeFrames_step (n : Nat)
    (hfault : a.fault = false)
    (hchunk : chunk ≠ []) :
    A.takeFrames (n + 1) a chunk =
      A.takeFrames n (A.takeFrame a chunk).1 (A.takeFrame a chunk).2 := by
  simp only [FrameActions.takeFrames, hfault, Bool.or_false, List.isEmpty_iff,
    if_neg hchunk]

/-- Without a fault, what is taken in is what the stream is cut into. -/
theorem takeFrames_feed (n : Nat)
    (hfault : a.fault = false)
    (hunfinished : SelectFraming.Partial a.pending)
    (hlength : chunk.length ≤ n)
    (hgood : (A.takeFrames n a chunk).fault = false) :
    SelectFraming.feed ⟨a.frames, a.pending⟩ chunk =
        ⟨(A.takeFrames n a chunk).frames, (A.takeFrames n a chunk).pending⟩ ∧
      (forall f, f ∈ (A.takeFrames n a chunk).frames ->
        f ∈ a.frames ∨ SelectFrame.checksumHolds f = true) := by
  induction n generalizing a chunk with
  | zero =>
      have hnil := List.length_eq_zero_iff.mp (Nat.le_zero.mp hlength)
      rw [hnil]
      exact ⟨rfl, fun f hf => Or.inl hf⟩
  | succ n ih =>
      by_cases hchunk : chunk = []
      · rw [takeFrames_stop (n + 1) a chunk (Or.inr hchunk), hchunk]
        exact ⟨rfl, fun f hf => Or.inl hf⟩
      · have htaken := @takeFrame_taken _ _ A a chunk hfault hunfinished
        rw [takeFrames_step n hfault hchunk] at hgood ⊢
        generalize (A.takeFrame a chunk).1 = a' at htaken hgood ⊢
        generalize (A.takeFrame a chunk).2 = rest at htaken hgood ⊢
        cases htaken with
        | refused _ hbad =>
            rw [takeFrames_stop n a' [] (Or.inr rfl), hbad] at hgood
            cases hgood
        | mismatch q rest' _ _ _ _ hbad =>
            rw [takeFrames_stop n a' [] (Or.inr rfl), hbad] at hgood
            cases hgood
        | part hstill _ hframes hpending =>
            rw [takeFrames_stop n a' [] (Or.inr rfl), hframes, hpending]
            exact ⟨Framing.feed_partial ⟨a.frames, a.pending⟩ chunk hstill,
              fun f hf => Or.inl hf⟩
        | whole q rest' hsplit hq hwhole hholds hfault' hframes hpending =>
            have hpos := List.length_pos_of_ne_nil hq
            rw [hsplit, List.length_append] at hlength
            rcases ih hfault' (by rw [hpending]; exact Framing.partial_nil)
              (by omega) hgood with ⟨hfeed, hall⟩
            constructor
            · rw [hsplit, Framing.feed_append,
                Framing.feed_whole ⟨a.frames, a.pending⟩ hq hwhole, ← hfeed,
                hframes, hpending]
            · intro f hf
              rcases hall f hf with hold | hnew
              · rw [hframes] at hold
                rcases List.mem_append.mp hold with hmem | hlast
                · exact Or.inl hmem
                · rw [List.mem_singleton] at hlast
                  rw [hlast]
                  exact Or.inr hholds
              · exact Or.inr hnew

/-- Where nothing is refused, a fault comes of a checksum. -/
theorem takeFrames_fault (n : Nat)
    (haccepts : forall t p w, (A.pass t p w).1 = true)
    (hfault : a.fault = false)
    (hunfinished : SelectFraming.Partial a.pending)
    (hbad : (A.takeFrames n a chunk).fault = true) :
    exists f, f ∈ (SelectFraming.feed ⟨a.frames, a.pending⟩ chunk).frames ∧
      SelectFrame.checksumHolds f = false := by
  induction n generalizing a chunk with
  | zero =>
      rw [FrameActions.takeFrames, hfault] at hbad
      cases hbad
  | succ n ih =>
      by_cases hchunk : chunk = []
      · rw [takeFrames_stop (n + 1) a chunk (Or.inr hchunk), hfault] at hbad
        cases hbad
      · have htaken := @takeFrame_taken _ _ A a chunk hfault hunfinished
        rw [takeFrames_step n hfault hchunk] at hbad
        generalize (A.takeFrame a chunk).1 = a' at htaken hbad
        generalize (A.takeFrame a chunk).2 = rest at htaken hbad
        cases htaken with
        | refused hrefused _ =>
            unfold FrameActions.handOn at hrefused
            split at hrefused
            · cases hrefused
            · rw [haccepts] at hrefused
              cases hrefused
        | mismatch q rest' hsplit hq hwhole hholds _ =>
            refine ⟨a.pending ++ q, ?_, hholds⟩
            rw [hsplit, Framing.feed_append,
              Framing.feed_whole ⟨a.frames, a.pending⟩ hq hwhole]
            exact Framing.frames_feed _ _ (List.mem_append_right _
              List.mem_cons_self)
        | part _ hfault' _ _ =>
            rw [takeFrames_stop n a' [] (Or.inr rfl), hfault'] at hbad
            cases hbad
        | whole q rest' hsplit hq hwhole hholds hfault' hframes hpending =>
            have hrest := ih hfault'
              (by rw [hpending]; exact Framing.partial_nil) hbad
            rw [hframes, hpending] at hrest
            rw [hsplit, Framing.feed_append,
              Framing.feed_whole ⟨a.frames, a.pending⟩ hq hwhole]
            exact hrest

end Frames

/-!
# Chunk by chunk
-/

section Chunks

variable {A : FrameActions ω σ} {init : ω} {a : Deframer σ}

/-- A call of `write` for every chunk. -/
def FrameActions.writeAll (A : FrameActions ω σ) (chunks : List ByteString)
    (s : FrameParser ω × σ) : FrameParser ω × σ :=
  chunks.foldl (fun s data => (A.onWrite data s.1 s.2).2) s

def FrameActions.takeAll (A : FrameActions ω σ) (a : Deframer σ)
    (chunks : List ByteString) : Deframer σ :=
  chunks.foldl A.takeIn a

theorem Represents.onWrite {d : FrameParser ω} {env : σ}
    (hrepresents : Represents A init d env a)
    (data : ByteString) :
    Represents A init (A.onWrite data d env).2.1 (A.onWrite data d env).2.2
      (A.takeIn a data) := by
  rcases onWrite_takeIn hrepresents data with ⟨d', env', hwrite, hrepresents'⟩
  rw [hwrite]
  exact hrepresents'

theorem Represents.writeAll {d : FrameParser ω} {env : σ}
    (hrepresents : Represents A init d env a)
    (chunks : List ByteString) :
    Represents A init (A.writeAll chunks (d, env)).1
      (A.writeAll chunks (d, env)).2 (A.takeAll a chunks) := by
  induction chunks generalizing d env a with
  | nil => exact hrepresents
  | cons data rest ih => exact ih (hrepresents.onWrite data)

theorem Deframer.Between.takeFrame (hbetween : a.Between) (hfault : a.fault = false)
    (chunk : ByteString) : (A.takeFrame a chunk).1.Between := by
  have htaken := @takeFrame_taken _ _ A a chunk hfault (hbetween hfault)
  intro hgood
  generalize (A.takeFrame a chunk).1 = a' at htaken hgood ⊢
  generalize (A.takeFrame a chunk).2 = rest at htaken
  cases htaken with
  | refused _ hbad =>
      rw [hbad] at hgood
      cases hgood
  | mismatch _ _ _ _ _ _ hbad =>
      rw [hbad] at hgood
      cases hgood
  | part hstill _ _ hpending =>
      rw [hpending]
      exact hstill
  | whole _ _ _ _ _ _ _ _ hpending =>
      rw [hpending]
      exact Framing.partial_nil

theorem takeFrame_rest (hbetween : a.Between) (hfault : a.fault = false)
    {chunk : ByteString}
    (hchunk : chunk ≠ []) :
    (A.takeFrame a chunk).2.length < chunk.length := by
  have hpos := List.length_pos_of_ne_nil hchunk
  have htaken := @takeFrame_taken _ _ A a chunk hfault (hbetween hfault)
  generalize (A.takeFrame a chunk).1 = a' at htaken
  generalize (A.takeFrame a chunk).2 = rest at htaken ⊢
  cases htaken with
  | refused => exact hpos
  | mismatch => exact hpos
  | part => exact hpos
  | whole q _ hsplit hq =>
      have hqpos := List.length_pos_of_ne_nil hq
      rw [hsplit, List.length_append]
      omega

/-- There is fuel enough when there is a unit for every byte. -/
theorem takeFrames_takeIn (n : Nat) {chunk : ByteString}
    (hbetween : a.Between)
    (hlength : chunk.length ≤ n) :
    A.takeFrames n a chunk = A.takeIn a chunk := by
  induction n using Nat.strong_induction_on generalizing a chunk with
  | _ n ih =>
      by_cases hstop : a.fault = true ∨ chunk = []
      · rw [FrameActions.takeIn, takeFrames_stop n a chunk hstop,
          takeFrames_stop chunk.length a chunk hstop]
      · have hfault : a.fault = false := by
          simpa using fun h => hstop (Or.inl h)
        have hchunk : chunk ≠ [] := fun h => hstop (Or.inr h)
        have hpos := List.length_pos_of_ne_nil hchunk
        have hrest := @takeFrame_rest _ _ A a hbetween hfault chunk hchunk
        have hnext := @Deframer.Between.takeFrame _ _ A a hbetween hfault chunk
        obtain ⟨m, hm⟩ : exists m, chunk.length = m + 1 :=
          ⟨chunk.length - 1, by omega⟩
        obtain ⟨k, hk⟩ : exists k, n = k + 1 := ⟨n - 1, by omega⟩
        rw [FrameActions.takeIn, hm, hk, takeFrames_step k hfault hchunk,
          takeFrames_step m hfault hchunk,
          ih k (by omega) hnext (by omega), ih m (by omega) hnext (by omega)]

theorem takeIn_stop {chunk : ByteString} (hstop : a.fault = true ∨ chunk = []) :
    A.takeIn a chunk = a :=
  takeFrames_stop chunk.length a chunk hstop

theorem takeIn_step {chunk : ByteString}
    (hbetween : a.Between)
    (hfault : a.fault = false)
    (hchunk : chunk ≠ []) :
    A.takeIn a chunk =
      A.takeIn (A.takeFrame a chunk).1 (A.takeFrame a chunk).2 := by
  have hless := @takeFrame_rest _ _ A a hbetween hfault chunk hchunk
  rw [← takeFrames_takeIn (chunk.length + 1) hbetween (Nat.le_succ _),
    takeFrames_step chunk.length hfault hchunk]
  exact takeFrames_takeIn chunk.length (hbetween.takeFrame hfault chunk)
    (Nat.le_of_lt hless)

theorem Deframer.Between.takeIn (hbetween : a.Between) (chunk : ByteString) :
    (A.takeIn a chunk).Between := by
  induction hn : chunk.length using Nat.strong_induction_on
    generalizing a chunk with
  | _ n ih =>
      by_cases hstop : a.fault = true ∨ chunk = []
      · rw [takeIn_stop hstop]
        exact hbetween
      · have hfault : a.fault = false := by
          simpa using fun h => hstop (Or.inl h)
        have hchunk : chunk ≠ [] := fun h => hstop (Or.inr h)
        have hless := @takeFrame_rest _ _ A a hbetween hfault chunk hchunk
        rw [takeIn_step hbetween hfault hchunk]
        exact ih _ (hn ▸ hless) (hbetween.takeFrame hfault chunk) _ rfl

theorem takeAll_fault (hfault : a.fault = true) (chunks : List ByteString) :
    (A.takeAll a chunks).fault = true := by
  induction chunks generalizing a with
  | nil => exact hfault
  | cons chunk rest ih =>
      refine @ih (A.takeIn a chunk) ?_
      rw [takeIn_stop (Or.inl hfault)]
      exact hfault

/-- Chunks that leave no fault have left none before. -/
theorem takeAll_good {chunk : ByteString} {rest : List ByteString}
    (hgood : (A.takeAll a (chunk :: rest)).fault = false) :
    a.fault = false ∧ (A.takeIn a chunk).fault = false := by
  have hfirst : (A.takeIn a chunk).fault = false := by
    by_contra hbad
    rw [Bool.not_eq_false] at hbad
    have hkept : (A.takeAll a (chunk :: rest)).fault = true := takeAll_fault hbad rest
    rw [hgood] at hkept
    cases hkept
  refine ⟨?_, hfirst⟩
  by_contra hbad
  rw [Bool.not_eq_false] at hbad
  rw [takeIn_stop (Or.inl hbad), hbad] at hfirst
  cases hfirst

/-- Without a fault, the chunks are cut into the frames of their stream. -/
theorem takeAll_feed (hbetween : a.Between) (chunks : List ByteString)
    (hgood : (A.takeAll a chunks).fault = false) :
    SelectFraming.feed ⟨a.frames, a.pending⟩ chunks.flatten =
      ⟨(A.takeAll a chunks).frames, (A.takeAll a chunks).pending⟩ := by
  induction chunks generalizing a with
  | nil => rfl
  | cons chunk rest ih =>
      rcases takeAll_good hgood with ⟨hfault, hfirst⟩
      have hfed := (takeFrames_feed chunk.length hfault (hbetween hfault)
        (Nat.le_refl _) hfirst).1
      have hrest := ih (hbetween.takeIn chunk) hgood
      rw [List.flatten_cons, Framing.feed_append, hfed]
      exact hrest

end Chunks

/-!
# Where nothing is refused
-/

section Accepting

variable {A : FrameActions ω σ} {log : Nat -> ByteString -> σ -> σ}
variable {a : Deframer σ} {p q chunk : ByteString}

/-- Every piece is accepted, and may as well be handed on in smaller pieces. -/
structure FrameActions.Accepts (A : FrameActions ω σ)
    (log : Nat -> ByteString -> σ -> σ) : Prop where
  pass : forall t p w, p ≠ [] -> A.pass t p w = (true, log t p w)
  nil : forall t w, log t [] w = w
  append : forall t p q w, log t (p ++ q) w = log t q (log t p w)

theorem FrameActions.Accepts.handOn (haccepts : A.Accepts log) (p q : ByteString)
    (w : σ) :
    A.handOn p q w =
      (true, log (SelectFrame.type (p ++ q)) (FrameActions.piece p q) w) := by
  unfold FrameActions.handOn
  by_cases hnil : FrameActions.piece p q = []
  · rw [hnil, haccepts.nil]
    rfl
  · rw [if_neg (by rwa [List.isEmpty_iff]), haccepts.pass _ _ _ hnil]

theorem piece_short (hshort : (p ++ q).length < FRAME_HEADER_LEN) :
    FrameActions.piece p q = [] := by
  refine List.drop_eq_nil_of_le ?_
  rw [List.length_take]
  omega

/-- A piece in two parts, the header being there when the second one comes. -/
theorem piece_append (r : ByteString)
    (hheader : FRAME_HEADER_LEN ≤ (p ++ q).length) :
    FrameActions.piece p (q ++ r) =
      FrameActions.piece p q ++ FrameActions.piece (p ++ q) r := by
  have htail := SelectFrame.tailOffset_append r hheader
  have hlength : p.length ≤ (p ++ q).length := by
    rw [List.length_append]
    omega
  have hfirst : max FRAME_HEADER_LEN p.length ≤ (p ++ q).length := by omega
  unfold FrameActions.piece
  rw [← List.append_assoc, htail, Nat.max_eq_right hheader]
  -- both parts are taken out of the same bytes
  have hbefore : (p ++ q).take (SelectFrame.tailOffset (p ++ q)) =
      ((p ++ q ++ r).take (SelectFrame.tailOffset (p ++ q))).take
        (p ++ q).length := by
    rw [List.take_take, Nat.min_comm, ← List.take_take, List.take_left]
  rw [hbefore]
  generalize (p ++ q ++ r).take (SelectFrame.tailOffset (p ++ q)) = x
  conv_lhs => rw [← List.take_append_drop (p ++ q).length x]
  rw [List.drop_append]
  congr 1
  rw [List.length_take]
  rcases Nat.le_total (p ++ q).length x.length with hle | hge
  · rw [Nat.min_eq_left hle, Nat.sub_eq_zero_of_le hfirst, List.drop_zero]
  · rw [List.drop_eq_nil_of_le hge, List.drop_nil]

theorem FrameActions.Accepts.handOn_append (haccepts : A.Accepts log)
    (p q r : ByteString) (w : σ) :
    A.handOn p (q ++ r) w = A.handOn (p ++ q) r (A.handOn p q w).2 := by
  rw [haccepts.handOn, haccepts.handOn, haccepts.handOn, ← List.append_assoc]
  by_cases hshort : (p ++ q).length < FRAME_HEADER_LEN
  · rw [piece_short hshort, haccepts.nil]
    have hmax : max FRAME_HEADER_LEN p.length =
        max FRAME_HEADER_LEN (p ++ q).length := by
      rw [List.length_append] at hshort ⊢
      omega
    simp only [FrameActions.piece, List.append_assoc, hmax]
  · have hheader := Nat.le_of_not_lt hshort
    rw [piece_append r hheader, haccepts.append,
      SelectFrame.type_append r hheader]

theorem FrameActions.Accepts.takeFrame_partial (haccepts : A.Accepts log)
    (hunfinished : SelectFraming.Partial (a.pending ++ chunk)) :
    A.takeFrame a chunk =
      ({ a with
          pending := a.pending ++ chunk
          env := (A.handOn a.pending chunk a.env).2 }, []) := by
  rw [Internal.takeFrame_partial hunfinished, haccepts.handOn]

theorem FrameActions.Accepts.takeFrame_whole (haccepts : A.Accepts log)
    (rest : ByteString)
    (hwhole : SelectFraming.Whole (a.pending ++ q)) :
    A.takeFrame a (q ++ rest) =
      if SelectFrame.checksumHolds (a.pending ++ q) then
        ({ a with
            frames := a.frames ++ [a.pending ++ q]
            pending := []
            env := (A.handOn a.pending q a.env).2 },
          rest)
      else ({ a with env := (A.handOn a.pending q a.env).2 }.mismatch, []) := by
  rw [Internal.takeFrame_whole rest hwhole, haccepts.handOn]

/-- A frame that comes in two parts. -/
theorem FrameActions.Accepts.takeFrame_append (haccepts : A.Accepts log)
    (hunfinished : SelectFraming.Partial (a.pending ++ chunk))
    (more : ByteString) :
    A.takeFrame (A.takeFrame a chunk).1 more = A.takeFrame a (chunk ++ more) := by
  rw [haccepts.takeFrame_partial hunfinished]
  rcases hunfinished.append_cases more with hstill | ⟨q, rest, hsplit, _, hwhole⟩
  · have hstill' := hstill
    rw [List.append_assoc] at hstill'
    rw [haccepts.takeFrame_partial hstill', haccepts.handOn_append,
      haccepts.takeFrame_partial hstill, List.append_assoc]
  · have hwhole' := hwhole
    rw [List.append_assoc] at hwhole'
    rw [hsplit, ← List.append_assoc, haccepts.takeFrame_whole rest hwhole',
      haccepts.handOn_append, haccepts.takeFrame_whole rest hwhole,
      List.append_assoc]
    rfl

/-- A chunk may be taken in in two parts. -/
theorem FrameActions.Accepts.takeIn_append (haccepts : A.Accepts log)
    (hbetween : a.Between)
    (chunk more : ByteString) :
    A.takeIn a (chunk ++ more) = A.takeIn (A.takeIn a chunk) more := by
  induction hn : chunk.length using Nat.strong_induction_on
    generalizing a chunk with
  | _ n ih =>
      cases hfault : a.fault with
      | true => rw [takeIn_stop (Or.inl hfault), takeIn_stop (Or.inl hfault),
          takeIn_stop (Or.inl hfault)]
      | false =>
          by_cases hchunk : chunk = []
          · rw [hchunk, List.nil_append, takeIn_stop (Or.inr rfl)]
          · by_cases hmore : more = []
            · rw [hmore, List.append_nil]
              exact (takeIn_stop (Or.inr rfl)).symm
            · have hboth : chunk ++ more ≠ [] := by simp [hchunk]
              rw [takeIn_step hbetween hfault hboth,
                takeIn_step hbetween hfault hchunk]
              rcases (hbetween hfault).append_cases chunk with
                hstill | ⟨q, rest, hsplit, hq, hwhole⟩
              · have hgood : (A.takeFrame a chunk).1.fault = false := by
                  rw [haccepts.takeFrame_partial hstill]
                  exact hfault
                have hnone : (A.takeFrame a chunk).2 = [] := by
                  rw [haccepts.takeFrame_partial hstill]
                rw [hnone, takeIn_stop (Or.inr rfl),
                  takeIn_step (hbetween.takeFrame hfault chunk) hgood hmore,
                  haccepts.takeFrame_append hstill]
              · have hless := @takeFrame_rest _ _ A a hbetween hfault chunk hchunk
                have hfirst : A.takeFrame a (chunk ++ more) =
                    ((A.takeFrame a chunk).1,
                      if (A.takeFrame a chunk).1.fault then []
                      else (A.takeFrame a chunk).2 ++ more) := by
                  rw [hsplit, List.append_assoc, haccepts.takeFrame_whole _ hwhole,
                    haccepts.takeFrame_whole _ hwhole]
                  split
                  · simp [hfault]
                  · rfl
                have hnext := @Deframer.Between.takeFrame _ _ A a hbetween hfault
                  chunk
                rw [hfirst]
                cases hbad : (A.takeFrame a chunk).1.fault with
                | true =>
                    rw [takeIn_stop (Or.inl hbad), takeIn_stop (Or.inl hbad),
                      takeIn_stop (Or.inl hbad)]
                | false =>
                    simp only [Bool.false_eq_true, if_false]
                    exact ih _ (hn ▸ hless) hnext _ rfl

/-- What is taken in does not depend on the chunks it comes in. -/
theorem FrameActions.Accepts.takeAll (haccepts : A.Accepts log)
    (hbetween : a.Between)
    (chunks : List ByteString) :
    A.takeAll a chunks = A.takeIn a chunks.flatten := by
  induction chunks generalizing a with
  | nil => exact (takeIn_stop (Or.inr rfl)).symm
  | cons chunk rest ih =>
      rw [List.flatten_cons, haccepts.takeIn_append hbetween]
      exact ih (hbetween.takeIn chunk)

/-- Frames whose checksums are right are taken in one after the other. -/
theorem FrameActions.Accepts.takeIn_frames (haccepts : A.Accepts log)
    {frames : List ByteString}
    (hwhole : forall f, f ∈ frames -> SelectFraming.Whole f)
    (hholds : forall f, f ∈ frames -> SelectFrame.checksumHolds f = true)
    (hfault : a.fault = false)
    (hpending : a.pending = []) :
    A.takeIn a frames.flatten =
      { a with
        frames := a.frames ++ frames
        env := frames.foldl (fun w f => log (SelectFrame.type f)
          (SelectFrame.payload f) w) a.env } := by
  induction frames generalizing a with
  | nil =>
      rw [List.flatten_nil, takeIn_stop (Or.inr rfl), List.append_nil]
      rfl
  | cons f rest ih =>
      have hf := hwhole f List.mem_cons_self
      have hbetween : a.Between := fun _ => by
        rw [hpending]
        exact Framing.partial_nil
      have hnil : f ≠ [] := Framing.ne_nil_of_whole hf
      have hboth : f ++ rest.flatten ≠ [] := by simp [hnil]
      have hfirst : A.takeFrame a (f ++ rest.flatten) =
          ({ a with
              frames := a.frames ++ [f]
              env := log (SelectFrame.type f) (SelectFrame.payload f) a.env },
            rest.flatten) := by
        have hf' := hf
        rw [← List.nil_append f, ← hpending] at hf'
        rw [haccepts.takeFrame_whole _ hf', haccepts.handOn, hpending,
          List.nil_append, hholds f List.mem_cons_self]
        rfl
      rw [List.flatten_cons, takeIn_step hbetween hfault hboth, hfirst]
      have hrest := ih (fun g hg => hwhole g (List.mem_cons_of_mem f hg))
        (fun g hg => hholds g (List.mem_cons_of_mem f hg))
        (show (A.takeFrame a (f ++ rest.flatten)).1.fault = false by
          rw [hfirst]
          exact hfault)
        (by
          rw [hfirst]
          exact hpending)
      rw [hfirst] at hrest
      rw [hrest]
      simp only [List.append_assoc, List.singleton_append, List.foldl_cons]

end Accepting

/-!
# Another environment
-/

section Simulation

variable {A : FrameActions ω σ} {B : FrameActions ω' ρ} {f : σ -> ρ}

def Deframer.map (f : σ -> ρ) (a : Deframer σ) : Deframer ρ :=
  ⟨a.frames, a.pending, a.fault, a.wrongChecksum, f a.env⟩

/-- Pieces are handed on alike, up to what `f` keeps of the environment. -/
def FrameActions.PassesLike (A : FrameActions ω σ) (B : FrameActions ω' ρ)
    (f : σ -> ρ) : Prop :=
  forall t p w, p ≠ [] ->
    B.pass t p (f w) = ((A.pass t p w).1, f (A.pass t p w).2)

theorem FrameActions.PassesLike.takeFrame (hlike : A.PassesLike B f)
    (a : Deframer σ) (chunk : ByteString) :
    B.takeFrame (a.map f) chunk =
      ((A.takeFrame a chunk).1.map f, (A.takeFrame a chunk).2) := by
  have hhandOn : forall p q w,
      B.handOn p q (f w) = ((A.handOn p q w).1, f (A.handOn p q w).2) := by
    intro p q w
    unfold FrameActions.handOn
    by_cases hnil : FrameActions.piece p q = []
    · rw [hnil]
      rfl
    · have hsome : ¬ (FrameActions.piece p q).isEmpty = true := by
        rwa [List.isEmpty_iff]
      rw [if_neg hsome, if_neg hsome, hlike _ _ w hnil]
  rcases hpass : A.handOn a.pending (FrameActions.ownBytes a.pending chunk)
    a.env with ⟨taken, env⟩
  have hpass' : B.handOn a.pending (FrameActions.ownBytes a.pending chunk)
      (f a.env) = (taken, f env) := by
    rw [hhandOn, hpass]
  simp only [FrameActions.takeFrame, Deframer.map, hpass, hpass']
  cases taken with
  | false => rfl
  | true =>
      by_cases hunfinished : SelectFraming.Partial
        (a.pending ++ FrameActions.ownBytes a.pending chunk)
      · simp only [hunfinished, if_true]
      · simp only [hunfinished, if_false]
        by_cases hholds : SelectFrame.checksumHolds
          (a.pending ++ FrameActions.ownBytes a.pending chunk) = true
        · simp only [hholds, if_true]
        · simp only [hholds]
          rfl

theorem FrameActions.PassesLike.takeFrames (hlike : A.PassesLike B f) (n : Nat)
    (a : Deframer σ) (chunk : ByteString) :
    B.takeFrames n (a.map f) chunk = (A.takeFrames n a chunk).map f := by
  induction n generalizing a chunk with
  | zero => rfl
  | succ n ih =>
      unfold FrameActions.takeFrames
      rw [hlike.takeFrame, ih]
      exact (apply_ite (Deframer.map f) _ _ _).symm

theorem FrameActions.PassesLike.takeAll (hlike : A.PassesLike B f)
    (a : Deframer σ) (chunks : List ByteString) :
    B.takeAll (a.map f) chunks = (A.takeAll a chunks).map f := by
  induction chunks generalizing a with
  | nil => rfl
  | cons chunk rest ih =>
      rw [FrameActions.takeAll, List.foldl_cons, FrameActions.takeIn,
        hlike.takeFrames]
      exact ih (A.takeIn a chunk)

end Simulation

end Internal
end OssSdk
