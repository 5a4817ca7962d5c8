import OssSdk.Hash.BlockHash

/-!
# Runs of a hasher

A hasher is fed in any pieces, asked for the hash at any time and started again.  Every
answer is the digest of the text since the last start, and no write leaves an array.
-/

namespace OssSdk
namespace Hash

open Foundation

variable {hash : Type} (method : BlockDigest hash)

/-! # The buffer -/

structure Buffers (h : Hasher hash) (s : hash) (count : BitVec 64) (waiting : ByteString) :
    Prop where
  cells : h.buffer.length = BlockSize
  size : h.bufferSize = waiting.length
  valid : h.buffer.take waiting.length = waiting
  hash : h.hash = s
  numBytes : h.numBytes = count

variable {h : Hasher hash} {s : hash} {count : BitVec 64} {waiting : ByteString}

theorem Buffers.put (hb : Buffers h s count waiting) (hroom : waiting.length < BlockSize)
    (b : UInt8) :
    exists h', h.put b = some h' ∧ Buffers h' s count (waiting ++ [b]) := by
  have hin : h.bufferSize < h.buffer.length := by
    rw [hb.cells, hb.size]
    exact hroom
  have hstore : store h.buffer h.bufferSize [b] = some (h.buffer.set h.bufferSize b) := by
    rw [store_cons, if_pos hin]
    rfl
  refine ⟨_, by rw [Hasher.put, hstore]; rfl, ?_⟩
  constructor
  · exact (List.length_set).trans hb.cells
  · show h.bufferSize + 1 = (waiting ++ [b]).length
    rw [List.length_append, hb.size, List.length_singleton]
  · show (h.buffer.set h.bufferSize b).take (waiting ++ [b]).length = waiting ++ [b]
    rw [List.length_append, List.length_singleton, ← hb.size, take_set_succ hin, hb.size,
      hb.valid]
  · exact hb.hash
  · exact hb.numBytes

theorem Buffers.fill (hb : Buffers h s count waiting) (hroom : waiting.length <= BlockSize)
    (data : ByteString) :
    exists h', h.fill data = some (h', data.drop (BlockSize - waiting.length)) ∧
      Buffers h' s count (waiting ++ data.take (BlockSize - waiting.length)) := by
  induction data generalizing h waiting with
  | nil =>
      refine ⟨h, by rw [List.drop_nil]; rfl, ?_⟩
      rw [List.take_nil, List.append_nil]
      exact hb
  | cons b rest ih =>
      rw [Hasher.fill]
      by_cases hsize : waiting.length < BlockSize
      · obtain ⟨h1, hput, hb1⟩ := hb.put hsize b
        have hlength : (waiting ++ [b]).length = waiting.length + 1 := by
          rw [List.length_append, List.length_singleton]
        obtain ⟨h2, hfill, hb2⟩ := ih hb1 (by omega)
        have hleft : BlockSize - waiting.length = BlockSize - (waiting ++ [b]).length + 1 := by
          omega
        refine ⟨h2, ?_, ?_⟩
        · rw [hb.size, if_pos hsize, hput, hleft, List.drop_succ_cons]
          exact hfill
        · rw [hleft, List.take_succ_cons]
          rwa [List.append_assoc, List.singleton_append] at hb2
      · have hfull : BlockSize - waiting.length = 0 := by omega
        refine ⟨h, ?_, ?_⟩
        · rw [hb.size, if_neg hsize, hfull, List.drop_zero]
        · rw [hfull, List.take_zero, List.append_nil]
          exact hb

theorem Buffers.keep (hb : Buffers h s count waiting) (data : ByteString)
    (hroom : waiting.length + data.length <= BlockSize) :
    exists h', h.keep data = some h' ∧ Buffers h' s count (waiting ++ data) := by
  induction data generalizing h waiting with
  | nil =>
      rw [List.append_nil]
      exact ⟨h, rfl, hb⟩
  | cons b rest ih =>
      rw [List.length_cons] at hroom
      obtain ⟨h1, hput, hb1⟩ := hb.put (by omega) b
      obtain ⟨h2, hkeep, hb2⟩ := ih hb1 (by
        rw [List.length_append, List.length_singleton]
        omega)
      refine ⟨h2, ?_, ?_⟩
      · rw [Hasher.keep, hput]
        exact hkeep
      · rwa [List.append_assoc, List.singleton_append] at hb2

theorem Buffers.processFullBuffer (hb : Buffers h s count waiting)
    (hfull : waiting.length = BlockSize) :
    Buffers (h.processFullBuffer method) (method.compress s waiting)
      (count + BitVec.ofNat 64 BlockSize) [] := by
  have hbuffer : h.buffer = waiting := by
    have hvalid := hb.valid
    rwa [hfull, ← hb.cells, List.take_length] at hvalid
  rw [Hasher.processFullBuffer, if_pos (hb.size.trans hfull), hbuffer, hb.hash, hb.numBytes]
  exact ⟨hfull, rfl, rfl, rfl, rfl⟩

theorem Buffers.processFullBuffer_of_short (hb : Buffers h s count waiting)
    (hshort : waiting.length < BlockSize) : h.processFullBuffer method = h := by
  rw [Hasher.processFullBuffer, if_neg]
  rw [hb.size]
  exact Nat.ne_of_lt hshort

theorem countBlocks_of_short {text : ByteString} (hshort : text.length < BlockSize) :
    Progress.countBlocks text = 0#64 := by
  rw [Progress.countBlocks, Nat.div_eq_of_lt hshort, Nat.mul_zero]

theorem countBlocks_cons {block : ByteString} (hblock : block.length = BlockSize)
    (text : ByteString) :
    Progress.countBlocks (block ++ text) =
      BitVec.ofNat 64 BlockSize + Progress.countBlocks text := by
  rw [Progress.countBlocks_append, leftOver_one (by decide) hblock, List.nil_append,
    Progress.countBlocks, hblock]
  rfl

theorem Buffers.processBlocks (hb : Buffers h s count waiting) (data : ByteString) :
    exists h', h.processBlocks method data = (h', leftOver BlockSize data) ∧
      Buffers h' (fullBlocks BlockSize method.compress s data)
        (count + Progress.countBlocks data) waiting := by
  induction hsize : data.length using Nat.strongRecOn generalizing h s count data with
  | ind size ih =>
      rw [Hasher.processBlocks]
      by_cases hlong : BlockSize <= data.length
      · have hblock : (data.take BlockSize).length = BlockSize := by
          rw [List.length_take, Nat.min_eq_left hlong]
        have hless : (data.drop BlockSize).length < size := by
          rw [List.length_drop, ← hsize]
          have hpos : 0 < BlockSize := by decide
          omega
        have hnext : Buffers
            { h with
              hash := method.compress h.hash (data.take BlockSize)
              numBytes := h.numBytes + BitVec.ofNat 64 BlockSize }
            (method.compress s (data.take BlockSize))
            (count + BitVec.ofNat 64 BlockSize) waiting :=
          ⟨hb.cells, hb.size, hb.valid, by rw [hb.hash], by rw [hb.numBytes]⟩
        obtain ⟨h', hrun, hb'⟩ := ih _ hless hnext (data.drop BlockSize) rfl
        have hhash := fullBlocks_cons (f := method.compress) (by decide) s hblock
          (data.drop BlockSize)
        have hleft := leftOver_cons (by decide) hblock (data.drop BlockSize)
        have hcount := countBlocks_cons hblock (data.drop BlockSize)
        rw [List.take_append_drop] at hhash hleft hcount
        refine ⟨h', ?_, ?_⟩
        · rw [if_pos hlong, hrun, hleft]
        · rw [hhash, hcount, ← BitVec.add_assoc]
          exact hb'
      · have hshort : data.length < BlockSize := Nat.lt_of_not_le hlong
        refine ⟨h, ?_, ?_⟩
        · rw [if_neg hlong, leftOver_of_short hshort]
        · rw [fullBlocks_of_short hshort, countBlocks_of_short hshort, BitVec.add_zero]
          exact hb

/-! # Adding -/

def Refines (h : Hasher hash) (p : Progress hash) : Prop :=
  Buffers h p.hash p.numBytes p.waiting

/-- With nothing waiting the blocks are taken from the data itself. -/
theorem Buffers.add_rest (hb : Buffers h s count []) (rest : ByteString) :
    exists h', h.addRest method rest = some h' ∧
      Buffers h' (fullBlocks BlockSize method.compress s rest)
        (count + Progress.countBlocks rest) (leftOver BlockSize rest) := by
  cases rest with
  | nil =>
      have hzero : count + Progress.countBlocks [] = count := BitVec.add_zero count
      refine ⟨h, rfl, ?_⟩
      rw [fullBlocks_nil, hzero]
      exact hb
  | cons b rest =>
      obtain ⟨h1, hblocks, hb1⟩ := hb.processBlocks method (b :: rest)
      obtain ⟨h2, hkeep, hb2⟩ := hb1.keep (leftOver BlockSize (b :: rest)) (by
        rw [List.length_nil, Nat.zero_add]
        exact Nat.le_of_lt (leftOver_short (b :: rest)))
      refine ⟨h2, ?_, hb2⟩
      rw [Hasher.addRest, if_neg (by simp), hblocks]
      exact hkeep

/-- Either the buffer is full now, or there is nothing to add to it. -/
theorem Buffers.add_filled (hb : Buffers h s count waiting)
    (hroom : waiting.length <= BlockSize) (rest : ByteString)
    (hrest : waiting.length < BlockSize -> rest = []) :
    exists h', (h.processFullBuffer method).addRest method rest = some h' ∧
      Buffers h' (fullBlocks BlockSize method.compress s (waiting ++ rest))
        (count + Progress.countBlocks (waiting ++ rest))
        (leftOver BlockSize (waiting ++ rest)) := by
  by_cases hshort : waiting.length < BlockSize
  · rw [hrest hshort, List.append_nil, fullBlocks_of_short hshort,
      countBlocks_of_short hshort, leftOver_of_short hshort, BitVec.add_zero,
      hb.processFullBuffer_of_short method hshort]
    exact ⟨h, rfl, hb⟩
  · have hfull : waiting.length = BlockSize := Nat.le_antisymm hroom (Nat.not_lt.mp hshort)
    rw [fullBlocks_cons (by decide) s hfull, countBlocks_cons hfull,
      leftOver_cons (by decide) hfull, ← BitVec.add_assoc]
    exact (hb.processFullBuffer method hfull).add_rest method rest

theorem Refines.add {p : Progress hash} (hp : Refines h p) (data : ByteString) :
    exists h', h.add method data = some h' ∧ Refines h' (p.absorb method data) := by
  have hb : Buffers h p.hash p.numBytes p.waiting := hp
  cases hwaiting : p.waiting with
  | nil =>
      rw [hwaiting] at hb
      have hempty : ¬ 0 < h.bufferSize := by
        rw [hb.size]
        exact Nat.lt_irrefl 0
      obtain ⟨h1, hrest, hb1⟩ := hb.add_rest method data
      refine ⟨h1, ?_, ?_⟩
      · rw [Hasher.add, if_neg hempty]
        show (h.processFullBuffer method).addRest method data = some h1
        rw [hb.processFullBuffer_of_short method (by decide), hrest]
      · show Buffers h1 (fullBlocks BlockSize method.compress p.hash (p.waiting ++ data))
          (p.numBytes + Progress.countBlocks (p.waiting ++ data))
          (leftOver BlockSize (p.waiting ++ data))
        rw [hwaiting]
        exact hb1
  | cons first others =>
      have hsome : 0 < h.bufferSize := by
        rw [hb.size, hwaiting]
        exact Nat.succ_pos _
      obtain ⟨h1, hfill, hb1⟩ := hb.fill (Nat.le_of_lt p.short) data
      have hrun : h.add method data =
          (h1.processFullBuffer method).addRest method
            (data.drop (BlockSize - p.waiting.length)) := by
        rw [Hasher.add, if_pos hsome, hfill]
        rfl
      have hsplit : p.waiting ++ data = p.waiting ++ data.take (BlockSize - p.waiting.length) ++
          data.drop (BlockSize - p.waiting.length) := by
        rw [List.append_assoc, List.take_append_drop]
      have hlength := List.length_take (i := BlockSize - p.waiting.length) (l := data)
      have hshort := p.short
      obtain ⟨h2, hadd, hb2⟩ := hb1.add_filled method
        (by rw [List.length_append]; omega)
        (data.drop (BlockSize - p.waiting.length))
        (by
          intro hless
          rw [List.length_append] at hless
          exact List.drop_of_length_le (by omega))
      refine ⟨h2, hrun.trans hadd, ?_⟩
      rw [← hsplit] at hb2
      exact hb2

/-! # Padding -/

theorem paddedLength_eq {size : Nat} (hsize : size < BlockSize) :
    Hasher.paddedLength size = if size < 56 then 56 else 120 := by
  have hall : forall n : Fin 64,
      Hasher.paddedLength n = if n.val < 56 then 56 else 120 := by decide
  exact hall ⟨size, hsize⟩

/-- The set bit and the zeros behind it fill the buffer. -/
theorem store_zeros {cells waiting : ByteString} (hcells : cells.length = BlockSize)
    (hvalid : cells.take waiting.length = waiting) (hshort : waiting.length < BlockSize) :
    exists marked, store cells waiting.length [128] = some marked ∧
      store marked (waiting.length + 1)
        (List.replicate (BlockSize - (waiting.length + 1)) 0) =
        some (waiting ++ 128 :: List.replicate (63 - waiting.length) 0) := by
  have hblock : BlockSize = 64 := rfl
  rw [hblock] at hcells hshort ⊢
  have hzeros : 64 - (waiting.length + 1) = 63 - waiting.length := by omega
  have hmark : (waiting ++ [128]).length = waiting.length + 1 := by
    rw [List.length_append, List.length_singleton]
  refine ⟨_, store_eq (by rw [List.length_singleton]; omega), ?_⟩
  rw [hvalid, hzeros, store_eq]
  · rw [← hmark, List.take_append_length, List.length_replicate, List.drop_of_length_le,
      List.append_nil, List.append_assoc, List.singleton_append]
    rw [List.length_append, List.length_drop, List.length_singleton]
    omega
  · rw [List.length_append, List.length_append, List.length_drop, List.length_replicate,
      List.length_singleton]
    omega

variable {extra : ByteString}

/-- The length goes behind the zeros of the buffer. -/
theorem Buffers.pad_one (hb : Buffers h s count waiting) (hshort : waiting.length < 56) :
    h.pad method extra =
      some (waiting ++ 128 :: List.replicate (55 - waiting.length) 0 ++
        method.lengthBytes h.msgBits, extra) := by
  have hin : waiting.length < BlockSize := Nat.lt_trans hshort (by decide)
  have hmax : max (waiting.length + 1) BlockSize = BlockSize := Nat.max_eq_right hin
  have hmarked : (waiting ++ 128 :: List.replicate (63 - waiting.length) (0 : UInt8)).length =
      64 := by
    rw [List.length_append, List.length_cons, List.length_replicate]
    omega
  have htake : (waiting ++ 128 :: List.replicate (63 - waiting.length) (0 : UInt8)).take 56 =
      waiting ++ 128 :: List.replicate (55 - waiting.length) 0 := by
    have hsplit : 56 = waiting.length + (55 - waiting.length + 1) := by omega
    rw [hsplit, List.take_length_add_append, List.take_succ_cons, List.take_replicate,
      Nat.min_eq_left (by omega)]
  have hlength := @store_eq (waiting ++ 128 :: List.replicate (63 - waiting.length) 0)
    (method.lengthBytes h.msgBits) 56 (by rw [hmarked, method.length_lengthBytes])
  rw [htake, method.length_lengthBytes, List.drop_of_length_le (Nat.le_of_eq hmarked),
    List.append_nil] at hlength
  obtain ⟨marked, hmark, hzeros⟩ := store_zeros hb.cells hb.valid hin
  have hnone : store extra (BlockSize - BlockSize) (List.replicate (56 - BlockSize) 0) =
      some extra := rfl
  simp only [Hasher.pad, hb.size, paddedLength_eq hin, if_pos hin, if_pos hshort, hmax, hmark,
    Option.bind_eq_bind, Option.bind_some, hzeros, hnone,
    if_pos (show 56 < BlockSize by decide), hlength]

/-- The length goes behind the zeros of the second array. -/
theorem Buffers.pad_two (hb : Buffers h s count waiting) (hin : waiting.length < BlockSize)
    (hlong : Not (waiting.length < 56)) (hextra : extra.length = BlockSize) :
    h.pad method extra =
      some (waiting ++ 128 :: List.replicate (63 - waiting.length) 0,
        List.replicate 56 0 ++ method.lengthBytes h.msgBits) := by
  have hblock : BlockSize = 64 := rfl
  have hmax : max (waiting.length + 1) BlockSize = BlockSize := Nat.max_eq_right hin
  have hfirst : store extra (BlockSize - BlockSize) (List.replicate (120 - BlockSize) 0) =
      some (List.replicate 56 0 ++ extra.drop 56) := by
    rw [store_eq]
    · rw [Nat.sub_self, List.take_zero, List.nil_append, List.length_replicate, Nat.zero_add,
        hblock]
    · rw [List.length_replicate, hextra, hblock]
      decide
  have hsecond : store (List.replicate 56 0 ++ extra.drop 56) (120 - BlockSize)
      (method.lengthBytes h.msgBits) =
      some (List.replicate 56 0 ++ method.lengthBytes h.msgBits) := by
    have hlength : (List.replicate 56 (0 : UInt8) ++ extra.drop 56).length = 64 := by
      rw [List.length_append, List.length_replicate, List.length_drop, hextra, hblock]
    have htake : (List.replicate 56 (0 : UInt8) ++ extra.drop 56).take (120 - BlockSize) =
        List.replicate 56 0 := List.take_left' List.length_replicate
    have hdrop : (List.replicate 56 (0 : UInt8) ++ extra.drop 56).drop (120 - BlockSize + 8) =
        [] := List.drop_of_length_le (Nat.le_of_eq hlength)
    rw [store_eq (by rw [hlength, method.length_lengthBytes, hblock]), htake,
      method.length_lengthBytes, hdrop, List.append_nil]
  obtain ⟨marked, hmark, hzeros⟩ := store_zeros hb.cells hb.valid hin
  simp only [Hasher.pad, hb.size, paddedLength_eq hin, if_pos hin, if_neg hlong, hmax, hmark,
    Option.bind_eq_bind, Option.bind_some, hzeros, hfirst, hsecond,
    if_neg (show Not (120 < BlockSize) by decide)]

/-! # The hash -/

theorem Buffers.msgBits (hb : Buffers h s count waiting) :
    h.msgBits = 8#64 * (count + BitVec.ofNat 64 waiting.length) := by
  rw [Hasher.msgBits, hb.numBytes, hb.size]

theorem Buffers.processBuffer (hb : Buffers h s count waiting)
    (hin : waiting.length < BlockSize) (hextra : extra.length = BlockSize) :
    exists h', h.processBuffer method extra = some h' ∧
      Buffers h' (fullBlocks BlockSize method.compress s
        (waiting ++ 0x80 :: List.replicate ((119 - waiting.length) % 64) 0 ++
          method.lengthBytes (8#64 * (count + BitVec.ofNat 64 waiting.length))))
        count waiting := by
  have hpadded := paddedLength_eq hin
  rw [← hb.size] at hpadded
  have hkeep : forall (marked more : ByteString) (t : hash), marked.length = BlockSize ->
      marked = waiting ++ more ->
      Buffers { h with buffer := marked, hash := t } t count waiting := by
    intro marked more t hlength hmarked
    refine ⟨hlength, hb.size, ?_, rfl, hb.numBytes⟩
    rw [hmarked, List.take_left' rfl]
  by_cases hshort : waiting.length < 56
  · have hzeros : (119 - waiting.length) % 64 = 55 - waiting.length := by omega
    have hlength : (waiting ++ 128 :: List.replicate (55 - waiting.length) 0 ++
        method.lengthBytes h.msgBits).length = BlockSize := by
      rw [List.length_append, List.length_append, List.length_cons, List.length_replicate,
        method.length_lengthBytes]
      have hblock : BlockSize = 64 := rfl
      omega
    refine ⟨_, ?_, hkeep _ _ _ hlength (List.append_assoc _ _ _)⟩
    rw [Hasher.processBuffer, hb.pad_one method hshort, hpadded, hb.size, if_pos hshort,
      hzeros, ← hb.msgBits, fullBlocks_one (by decide) s hlength, hb.hash]
    rfl
  · have hblock : BlockSize = 64 := rfl
    have hfirst : (waiting ++ 128 :: List.replicate (63 - waiting.length) (0 : UInt8)).length =
        BlockSize := by
      rw [List.length_append, List.length_cons, List.length_replicate]
      omega
    have hsecond : (List.replicate 56 0 ++ method.lengthBytes h.msgBits).length =
        BlockSize := by
      rw [List.length_append, List.length_replicate, method.length_lengthBytes]
      rfl
    have hzeros : (119 - waiting.length) % 64 = 63 - waiting.length + 56 := by omega
    have hsplit : waiting ++ 0x80 :: List.replicate ((119 - waiting.length) % 64) 0 ++
        method.lengthBytes h.msgBits =
        (waiting ++ 128 :: List.replicate (63 - waiting.length) 0) ++
          (List.replicate 56 0 ++ method.lengthBytes h.msgBits) := by
      rw [hzeros, List.replicate_add]
      simp only [List.append_assoc, List.cons_append]
    refine ⟨_, ?_, hkeep _ _ _ hfirst rfl⟩
    rw [Hasher.processBuffer, hb.pad_two method hin hshort hextra, hpadded, hb.size,
      if_neg hshort, ← hb.msgBits, hsplit, fullBlocks_cons (by decide) s hfirst,
      fullBlocks_one (by decide) _ hsecond, hb.hash]
    rfl

theorem Refines.getHash {p : Progress hash} (hp : Refines h p)
    (hextra : extra.length = BlockSize) :
    exists h', h.getHash method extra = some (h', p.answer method) ∧ Refines h' p := by
  have hb : Buffers h p.hash p.numBytes p.waiting := hp
  obtain ⟨h1, hrun, hb1⟩ := hb.processBuffer method p.short hextra
  refine ⟨{ h1 with hash := h.hash }, ?_, ?_⟩
  · rw [Hasher.getHash, hrun]
    show some ({ h1 with hash := h.hash }, method.output h1.hash) = _
    rw [hb1.hash, Progress.answer]
  · exact ⟨hb1.cells, hb1.size, hb1.valid, hb.hash, hb1.numBytes⟩

/-! # Runs -/

/-- What the caller does; what is in the second array of `processBuffer` is not known. -/
inductive Call where
  | add (data : ByteString)
  | getHash (extra : Vector UInt8 BlockSize)
  | reset

def Hasher.serve (h : Hasher hash) : Call -> Option (Hasher hash × List ByteString)
  | .add data => (h.add method data).map fun h => (h, [])
  | .getHash extra => (h.getHash method extra.toList).map fun (h, answer) => (h, [answer])
  | .reset => some (h.reset method, [])

def Hasher.serveAll (h : Hasher hash) : List Call -> Option (List ByteString)
  | [] => some []
  | call :: calls => do
      let (h, answer) <- h.serve method call
      let answers <- h.serveAll calls
      some (answer ++ answers)

/-- The constructor, on memory that holds anything. -/
def Hasher.construct (h : Hasher hash) : Hasher hash := h.reset method

/-- The digests of the text since the last start. -/
def digests (text : ByteString) : List Call -> List ByteString
  | [] => []
  | .add data :: calls => digests (text ++ data) calls
  | .getHash _ :: calls => method.digest text :: digests text calls
  | .reset :: calls => digests [] calls

theorem Refines.reset (hcells : h.buffer.length = BlockSize) :
    Refines (h.reset method) (Progress.start method) :=
  ⟨hcells, rfl, rfl, rfl, rfl⟩

theorem Refines.serveAll {text : ByteString} {calls : List Call}
    (hp : Refines h ((Progress.start method).absorb method text)) :
    h.serveAll method calls = some (digests method text calls) := by
  induction calls generalizing h text with
  | nil => rfl
  | cons call calls ih =>
      rw [Hasher.serveAll]
      cases call with
      | add data =>
          obtain ⟨h1, hadd, hp1⟩ := hp.add method data
          rw [← Progress.absorb_append] at hp1
          rw [Hasher.serve, hadd]
          show (h1.serveAll method calls).bind (fun answers => some ([] ++ answers)) = _
          rw [ih hp1]
          rfl
      | getHash extra =>
          obtain ⟨h1, hget, hp1⟩ := hp.getHash method extra.length_toList
          rw [Progress.answer_absorb] at hget
          rw [Hasher.serve, hget]
          show (h1.serveAll method calls).bind
            (fun answers => some ([method.digest text] ++ answers)) = _
          rw [ih hp1]
          rfl
      | reset =>
          have hp1 := Refines.reset method hp.cells
          rw [← Progress.absorb_nil method (Progress.start method)] at hp1
          show ((h.reset method).serveAll method calls).bind
            (fun answers => some ([] ++ answers)) = _
          rw [ih hp1]
          rfl

/-- The memory of a hasher and of the array in its `processBuffer`. -/
structure Memory (hash : Type) where
  hasher : Hasher hash
  cells : hasher.buffer.length = BlockSize
  extra : Vector UInt8 BlockSize

/-- A new hasher answers every run of calls with digests. -/
theorem serveAll_construct (memory : Memory hash) (calls : List Call) :
    (memory.hasher.construct method).serveAll method calls =
      some (digests method [] calls) := by
  have hp := Refines.reset method memory.cells
  rw [← Progress.absorb_nil method (Progress.start method)] at hp
  exact hp.serveAll

end Hash
end OssSdk
