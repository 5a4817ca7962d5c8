import OssSdk.Transport.Curl.CurlHelper

/-!
# The headers of a response through libcurl

During one transfer libcurl may pass on the headers of several responses: interim ones,
answers of a proxy, and those that redirect.  The last one is the response.
-/

namespace OssSdk
namespace Transport
namespace Curl

open Foundation

variable {σ : Type}

/-- The lines of one response, and the length that libcurl finds in them. -/
structure HeaderBlock where
  statusLine : ByteString
  fields : List ByteString
  contentLengthDownload : Int

def HeaderBlock.lines (block : HeaderBlock) : List ByteString :=
  block.statusLine :: block.fields ++ [[13, 10]]

def recvLines (contentLengthDownload : Int) (lines : List ByteString)
    (io : TransferIO σ) : TransferIO σ :=
  lines.foldl (fun io line => (recvHeadersCallback contentLengthDownload io line).2) io

/-- One callback after another, for the lines of all responses. -/
def recvBlocks (blocks : List HeaderBlock) (io : TransferIO σ) : TransferIO σ :=
  blocks.foldl (fun io block => recvLines block.contentLengthDownload block.lines io) io

/-- The headers that lines make on their own. -/
def headersOf (lines : List ByteString) : HeaderCollection :=
  SortedMap.ofList (lines.filterMap headerInLine)

/-- The first header of its name in some lines. -/
def FirstIn (lines : List ByteString) (header : ByteString × ByteString) : Prop :=
  (lines.filterMap headerInLine).find?
    (fun other => SortedMap.equivalent caseInsensitiveLess other.1 header.1) = some header

/-!
# One line and several
-/

theorem recvHeadersCallback_headers (contentLengthDownload : Int) (io : TransferIO σ)
    (buffer : ByteString) :
    (recvHeadersCallback contentLengthDownload io buffer).2.headers =
      (headerInLine buffer).toList.foldl (fun m e => m.emplace e.1 e.2) io.headers := by
  have hlength : forall (io : TransferIO σ) (n : Nat) (p : Prop) [Decidable p],
      (if p then (n, { io with recvDataLength := contentLengthDownload })
        else (n, io)).2.headers = io.headers := by
    intro io n p _
    split
    · rfl
    · rfl
  unfold recvHeadersCallback
  rw [hlength]
  cases headerInLine buffer with
  | none => rfl
  | some header => rfl

theorem recvLines_headers (contentLengthDownload : Int) (lines : List ByteString)
    (io : TransferIO σ) :
    (recvLines contentLengthDownload lines io).headers =
      (lines.filterMap headerInLine).foldl (fun m e => m.emplace e.1 e.2) io.headers := by
  induction lines generalizing io with
  | nil => rfl
  | cons line rest ih =>
      have hline := recvHeadersCallback_headers contentLengthDownload io line
      unfold recvLines at ih ⊢
      rw [List.foldl_cons, ih, hline]
      cases hheader : headerInLine line with
      | none =>
          rw [List.filterMap_cons_none hheader]
          rfl
      | some header =>
          rw [List.filterMap_cons_some hheader]
          rfl

theorem recvBlocks_headers (blocks : List HeaderBlock) (io : TransferIO σ) :
    (recvBlocks blocks io).headers =
      ((blocks.flatMap HeaderBlock.lines).filterMap headerInLine).foldl
        (fun m e => m.emplace e.1 e.2) io.headers := by
  induction blocks generalizing io with
  | nil => rfl
  | cons block rest ih =>
      unfold recvBlocks at ih ⊢
      rw [List.foldl_cons, ih, recvLines_headers, List.flatMap_cons, List.filterMap_append,
        List.foldl_append]

theorem firstIn_iff (lines : List ByteString) (header : ByteString × ByteString) :
    FirstIn lines header ↔ header ∈ (headersOf lines).entries :=
  SortedMap.mem_ofList_iff.symm

/-- Lines before others leave no trace if what they say is said by the others as well. -/
theorem headersOf_append_iff (earlier later : List ByteString) :
    headersOf (earlier ++ later) = headersOf later ↔
      forall header, FirstIn earlier header -> FirstIn later header := by
  have hfind : forall name, (headersOf (earlier ++ later)).findEntry name =
      ((headersOf earlier).findEntry name).or ((headersOf later).findEntry name) := by
    intro name
    unfold headersOf
    rw [List.filterMap_append, SortedMap.findEntry_ofList, SortedMap.findEntry_ofList,
      SortedMap.findEntry_ofList, List.find?_append]
  constructor
  · intro hsame header hfirst
    rw [firstIn_iff, SortedMap.mem_entries_iff] at hfirst ⊢
    have hname := hfind header.1
    rw [hsame, hfirst] at hname
    exact hname
  · intro hsaid
    apply SortedMap.ext_findEntry
    intro name
    rw [hfind]
    cases hfound : (headersOf earlier).findEntry name with
    | none => rfl
    | some header =>
        have hmem : header ∈ (headersOf earlier).entries := List.mem_of_find?_eq_some hfound
        have hsame : SortedMap.equivalent caseInsensitiveLess header.1 name = true := by
          have hpred := List.find?_some hfound
          exact hpred
        have hlater := hsaid header ((firstIn_iff _ _).mpr hmem)
        rw [firstIn_iff, SortedMap.mem_entries_iff, SortedMap.findEntry_congr _ hsame]
          at hlater
        exact hlater.symm

theorem filterMap_blank (lines : List ByteString) :
    (lines ++ [[13, 10]]).filterMap headerInLine = lines.filterMap headerInLine := by
  rw [List.filterMap_append]
  exact List.append_nil _

/-!
# Several responses
-/

/-- What is passed on before the fields of the final response. -/
def linesBefore (earlier : List HeaderBlock) (final : HeaderBlock) : List ByteString :=
  earlier.flatMap HeaderBlock.lines ++ [final.statusLine]

theorem filterMap_blocks (earlier : List HeaderBlock) (final : HeaderBlock) :
    ((earlier ++ [final]).flatMap HeaderBlock.lines).filterMap headerInLine =
      (linesBefore earlier final ++ final.fields).filterMap headerInLine := by
  have hlines : (earlier ++ [final]).flatMap HeaderBlock.lines =
      linesBefore earlier final ++ final.fields ++ [[13, 10]] := by
    unfold linesBefore
    rw [List.flatMap_append, List.flatMap_singleton, HeaderBlock.lines,
      List.append_assoc, List.append_assoc]
    rfl
  rw [hlines, filterMap_blank]

/-- The headers are those of the final response exactly if it says all that came before. -/
theorem final_headers_iff (io : TransferIO σ) (earlier : List HeaderBlock)
    (final : HeaderBlock) :
    (recvBlocks (earlier ++ [final]) { io with headers := SortedMap.empty }).headers =
        headersOf final.fields ↔
      forall header, FirstIn (linesBefore earlier final) header ->
        FirstIn final.fields header := by
  rw [recvBlocks_headers, ← headersOf_append_iff, filterMap_blocks]
  exact Iff.rfl

/-- A redirect without a body, and then the response with its body. -/
theorem final_headers_redirected :
    let redirect : HeaderBlock :=
      { statusLine := bytes "HTTP/1.1 302 Found\x0d\n"
        fields := [bytes "Content-Length: 0\x0d\n"]
        contentLengthDownload := 0 }
    let final : HeaderBlock :=
      { statusLine := bytes "HTTP/1.1 200 OK\x0d\n"
        fields := [bytes "Content-Length: 5\x0d\n"]
        contentLengthDownload := 5 }
    (recvBlocks [redirect, final]
      (Curl.TransferIO.init 200 SortedMap.empty none (-1) ())).headers ≠
        headersOf final.fields := by
  intro redirect final hsame
  have hlength := congrArg (fun m => m.find? (bytes "Content-Length")) hsame
  revert hlength
  decide +kernel

end Curl
end Transport
end OssSdk
