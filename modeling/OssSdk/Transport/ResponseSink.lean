import OssSdk.Transport.HttpTypes

/-!
# The sink of a response body

A transport writes the body of a response either into a string stream of its own
or into a writer that the sink factory has made.
-/

namespace OssSdk
namespace Transport

open Foundation

variable {σ : Type}

def kWriteBufferLength : Nat := 64 * 1024

/-- The statuses whose body does not go to the caller's sink. -/
def isErrorStatus (statusCode : Int) : Bool :=
  statusCode.tdiv 100 != 2 || statusCode == 203

/-- The string stream grows without a bound, and never fails. -/
inductive ResponseSink (σ : Type) where
  | default (body : ByteString)
  | user (writer : ByteWriter σ)

/--
What has become of the body so far.  `writes` records what was offered to the
sink and how much of it the sink took.
-/
structure Reception (σ : Type) where
  sink : Option (ResponseSink σ)
  writes : List (ByteString × Nat)
  env : σ

namespace Reception

def fail (r : Reception σ) : Bool :=
  match r.sink with
  | some (.user writer) => writer.fail r.env
  | _ => false

def bad (r : Reception σ) : Bool :=
  match r.sink with
  | some (.user writer) => writer.bad r.env
  | _ => false

def write (r : Reception σ) (data : ByteString) : Reception σ :=
  match r.sink with
  | some (.user writer) =>
      let (written, env) := writer.write data r.env
      { r with writes := r.writes ++ [(data, written)], env := env }
  | some (.default body) =>
      { r with
        sink := some (.default (body ++ data))
        writes := r.writes ++ [(data, data.length)] }
  | none => r

/-- The content of the stream, where there is one. -/
def defaultSink (r : Reception σ) : Option ByteString :=
  match r.sink with
  | some (.default body) => some body
  | _ => none

end Reception

/-!
# A body that is not lost
-/

/--
A transfer that is reported as successful has offered every chunk to the sink,
which took all of each and is not failed, and which is not a stream that the
response does not lead to.
-/
def KeepsBody (chunks : List ByteString) (result : ResponseResult)
    (r : Reception σ) : Prop :=
  forall response, result = .response response ->
    r.writes.map Prod.fst = chunks ∧
      (forall x, x ∈ r.writes -> x.2 = x.1.length) ∧
      (chunks ≠ [] -> r.fail = false) ∧
      (chunks ≠ [] -> forall body, r.defaultSink = some body ->
        response.body = some body)

/-!
# A run of writes
-/

def Reception.writeAll (r : Reception σ) (chunks : List ByteString) :
    Reception σ :=
  chunks.foldl Reception.write r

/--
A failure shows where a transport looks for it: `badbit` after a write, or also
any failure before the next one.
-/
def Reception.refusalSeen (looksBefore : Bool) :
    List ByteString -> Reception σ -> Bool
  | [], _ => false
  | chunk :: rest, r =>
      (looksBefore && r.fail) || (r.write chunk).bad ||
        refusalSeen looksBefore rest (r.write chunk)

/-- The writer takes all of every chunk, and is not failed in the end. -/
def acceptsAll (writer : ByteWriter σ) : List ByteString -> σ -> Bool
  | [], w => !writer.fail w
  | chunk :: rest, w =>
      (writer.write chunk w).1 == chunk.length &&
        acceptsAll writer rest (writer.write chunk w).2

/-- The same of a writer, as it is shown to the transport. -/
def refusalSeen (looksBefore : Bool) (writer : ByteWriter σ) :
    List ByteString -> σ -> Bool
  | [], _ => false
  | chunk :: rest, w =>
      (looksBefore && writer.fail w) || writer.bad (writer.write chunk w).2 ||
        refusalSeen looksBefore writer rest (writer.write chunk w).2

namespace Reception

theorem refusalSeen_user (looksBefore : Bool) (writer : ByteWriter σ)
    (chunks : List ByteString) (writes : List (ByteString × Nat)) (w : σ) :
    refusalSeen looksBefore chunks ⟨some (.user writer), writes, w⟩ =
      Transport.refusalSeen looksBefore writer chunks w := by
  induction chunks generalizing writes w with
  | nil => rfl
  | cons chunk rest ih =>
      simp only [refusalSeen, Transport.refusalSeen]
      rw [← ih (writes ++ [(chunk, (writer.write chunk w).1)])]
      rfl

theorem refusalSeen_default (looksBefore : Bool) (chunks : List ByteString)
    (body : ByteString) (writes : List (ByteString × Nat)) (w : σ) :
    refusalSeen looksBefore chunks ⟨some (.default body), writes, w⟩ =
      false := by
  induction chunks generalizing body writes with
  | nil => rfl
  | cons chunk rest ih =>
      have hrest := ih (body ++ chunk) (writes ++ [(chunk, chunk.length)])
      simp only [refusalSeen, write, fail, bad, Bool.and_false, Bool.or_self,
        Bool.false_or]
      exact hrest

theorem writeAll_default (chunks : List ByteString) (body : ByteString)
    (writes : List (ByteString × Nat)) (w : σ) :
    writeAll ⟨some (.default body), writes, w⟩ chunks =
      ⟨some (.default (body ++ chunks.flatten)),
        writes ++ chunks.map fun chunk => (chunk, chunk.length), w⟩ := by
  induction chunks generalizing body writes with
  | nil => simp [writeAll]
  | cons chunk rest ih =>
      have hrest := ih (body ++ chunk) (writes ++ [(chunk, chunk.length)])
      simp only [writeAll, List.foldl_cons, write] at hrest ⊢
      rw [hrest]
      simp

/-- Every chunk is offered in turn, and the writer stays the sink. -/
theorem writeAll_user (writer : ByteWriter σ) (chunks : List ByteString)
    (writes : List (ByteString × Nat)) (w : σ) :
    exists written env,
      writeAll ⟨some (.user writer), writes, w⟩ chunks =
        ⟨some (.user writer), writes ++ written, env⟩ ∧
      written.map Prod.fst = chunks ∧
      (acceptsAll writer chunks w = true ↔
        (forall x, x ∈ written -> x.2 = x.1.length) ∧
          writer.fail env = false) := by
  induction chunks generalizing writes w with
  | nil =>
      refine ⟨[], w, by simp [writeAll], rfl, ?_⟩
      simp [acceptsAll]
  | cons chunk rest ih =>
      rcases hwrite : writer.write chunk w with ⟨n, w'⟩
      rcases ih (writes ++ [(chunk, n)]) w' with
        ⟨written, env, hall, hchunks, haccepts⟩
      refine ⟨(chunk, n) :: written, env, ?_, ?_, ?_⟩
      · simp only [writeAll, List.foldl_cons, write, hwrite] at hall ⊢
        rw [hall]
        simp
      · simp [hchunks]
      · simp only [acceptsAll, hwrite, Bool.and_eq_true, beq_iff_eq, haccepts,
          List.mem_cons, forall_eq_or_imp]
        exact and_assoc.symm

/-- What the chunks leave of the state of a writer. -/
theorem writeAll_writes (writer : ByteWriter σ) (chunks : List ByteString)
    (writes : List (ByteString × Nat)) (w : σ) :
    let r := writeAll ⟨some (.user writer), writes, w⟩ chunks
    r.sink = some (.user writer) ∧ r.env = writer.writes chunks w := by
  induction chunks generalizing writes w with
  | nil => exact ⟨rfl, rfl⟩
  | cons chunk rest ih => exact ih _ _

end Reception

/-!
# The end of a transfer
-/

/--
A transport that writes one chunk after another into the sink `r0`, until it
sees a failure, and that gives the stream to the response or not.
-/
structure Ends (looksBefore reachable : Bool) (chunks : List ByteString)
    (r0 : Reception σ) (result : ResponseResult) (r : Reception σ) : Prop where
  refused : Reception.refusalSeen looksBefore chunks r0 = true ->
    exists te, result = .error te
  received : Reception.refusalSeen looksBefore chunks r0 = false ->
    exists response, result = .response response ∧ r = r0.writeAll chunks ∧
      response.body = if reachable then r.defaultSink else none

theorem KeepsBody.of_error {chunks : List ByteString} {result : ResponseResult}
    {r : Reception σ} (h : exists te, result = .error te) :
    KeepsBody chunks result r := by
  rcases h with ⟨te, h⟩
  intro response hresponse
  rw [h] at hresponse
  cases hresponse

theorem Ends.keepsBody_user {looksBefore reachable : Bool}
    {chunks : List ByteString} {writer : ByteWriter σ} {w : σ}
    {result : ResponseResult} {r : Reception σ}
    (hends : Ends looksBefore reachable chunks ⟨some (.user writer), [], w⟩
      result r)
    (hchunks : chunks ≠ []) :
    KeepsBody chunks result r ↔
      refusalSeen looksBefore writer chunks w = true ∨
        acceptsAll writer chunks w = true := by
  rcases hends with ⟨hrefused, hreceived⟩
  rw [Reception.refusalSeen_user] at hrefused hreceived
  cases hseen : refusalSeen looksBefore writer chunks w with
  | true =>
      constructor
      · intro _
        exact Or.inl rfl
      · intro _
        exact KeepsBody.of_error (hrefused hseen)
  | false =>
      rcases hreceived hseen with ⟨response, hresult, hr, _⟩
      rcases Reception.writeAll_user writer chunks [] w with
        ⟨written, env, hall, hwritten, haccepts⟩
      rw [hall, List.nil_append] at hr
      constructor
      · intro hkeeps
        right
        rcases hkeeps response hresult with ⟨_, hwhole, hfail, _⟩
        rw [hr] at hwhole hfail
        exact haccepts.mpr ⟨hwhole, hfail hchunks⟩
      · intro hor
        have hgood := haccepts.mp (hor.resolve_left (by simp))
        intro response' _
        rw [hr]
        refine ⟨hwritten, hgood.1, fun _ => hgood.2, ?_⟩
        intro _ body hbody
        cases hbody

theorem Ends.keepsBody_default {looksBefore reachable : Bool}
    {chunks : List ByteString} {w : σ}
    {result : ResponseResult} {r : Reception σ}
    (hends : Ends looksBefore reachable chunks ⟨some (.default []), [], w⟩
      result r)
    (hchunks : chunks ≠ []) :
    KeepsBody chunks result r ↔ reachable = true := by
  rcases hends.received (Reception.refusalSeen_default ..) with
    ⟨response, hresult, hr, hbody⟩
  rw [Reception.writeAll_default] at hr
  have hsink : r.defaultSink = some (chunks.flatten) := by
    rw [hr]
    rfl
  rw [hsink] at hbody
  constructor
  · intro hkeeps
    rcases hkeeps response hresult with ⟨_, _, _, hreach⟩
    rw [hreach hchunks _ hsink] at hbody
    cases hcase : reachable with
    | true => rfl
    | false =>
        rw [hcase] at hbody
        cases hbody
  · intro hreachable response' hresponse'
    rw [hresult] at hresponse'
    cases hresponse'
    refine ⟨by rw [hr]; simp [Function.comp_def], ?_, ?_, ?_⟩
    · intro x hx
      rw [hr, List.nil_append] at hx
      rcases List.mem_map.mp hx with ⟨chunk, _, hchunk⟩
      rw [← hchunk]
    · intro _
      rw [hr]
      rfl
    · intro _ body hsome
      rw [hsink] at hsome
      rw [hbody, if_pos hreachable]
      exact hsome

end Transport
end OssSdk
