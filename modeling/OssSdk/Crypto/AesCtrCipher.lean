import OssSdk.Foundation.BigEndian
import OssSdk.Foundation.StreamCipher
import Mathlib.Logic.Equiv.Basic

/-!
# AES in counter mode

The platform encrypts single blocks.  `AesCtrCipher` makes a keystream of them: the
counter block counts in all of its bytes, and what is left of a keystream block is
kept for the next call.
-/

namespace OssSdk
namespace Crypto

open Foundation
open StreamCipher

/-- AES as the platform has it: keys are set up, and single blocks are encrypted. -/
structure BlockCipher where
  setup : ByteString -> Bool
  encrypt : ByteString -> ByteString -> Option ByteString
  length_encrypt : forall {key block out},
    encrypt key block = some out -> out.length = 16

/-- The platform does not fail for this key. -/
structure BlockCipher.Works (aes : BlockCipher) (key : ByteString) : Prop where
  setup : aes.setup key = true
  encrypt : forall block, block.length = 16 -> (aes.encrypt key block).isSome = true

/-- Different blocks stay different under this key. -/
def BlockCipher.Permutes (aes : BlockCipher) (key : ByteString) : Prop :=
  forall block block', block.length = 16 -> block'.length = 16 ->
    aes.encrypt key block = aes.encrypt key block' -> block = block'

/-- `hKey` stands for the key that it was made of. -/
structure BcryptAesCtrContext where
  hKey : ByteString
  counter : ByteString
  keystreamBlock : ByteString
  keystreamOffset : Nat
deriving DecidableEq

/-- `ctx_`, which is null where the key or the platform was not good enough. -/
abbrev AesCtrCipher : Type := Option BcryptAesCtrContext

/-- The lengths that the constructor asks for. -/
def validKeyIV (key iv : ByteString) : Bool :=
  (key.length == 16 || key.length == 32) && decide (16 ≤ iv.length)

def AesCtrCipher.create (aes : BlockCipher) (key iv : ByteString) : AesCtrCipher :=
  if !validKeyIV key iv then none
  else if !aes.setup key then none
  else
    some
      { hKey := key
        counter := iv.take 16
        keystreamBlock := List.replicate 16 0
        keystreamOffset := 16 }

/-- The loop of `incrementCounter`, which begins with the last byte. -/
def incrementBytes : ByteString -> ByteString
  | [] => []
  | b :: rest => if b + 1 ≠ 0 then (b + 1) :: rest else 0 :: incrementBytes rest

def incrementCounter (counter : ByteString) : ByteString :=
  (incrementBytes counter.reverse).reverse

namespace BcryptAesCtrContext

/-- A used up keystream block is replaced. -/
def refill (aes : BlockCipher) (ctx : BcryptAesCtrContext) :
    Option BcryptAesCtrContext :=
  if 16 ≤ ctx.keystreamOffset then
    (aes.encrypt ctx.hKey ctx.counter).map fun block =>
      { ctx with
        keystreamBlock := block
        counter := incrementCounter ctx.counter
        keystreamOffset := 0 }
  else some ctx

/-- Every turn of the loop processes a byte at least, so there are enough turns. -/
def processLoop (aes : BlockCipher) :
    Nat -> BcryptAesCtrContext -> ByteString -> ByteString × BcryptAesCtrContext
  | 0, ctx, _ => ([], ctx)
  | turns + 1, ctx, input =>
      if input.isEmpty then ([], ctx)
      else
        match ctx.refill aes with
        | none => ([], ctx)
        | some ctx =>
            let available := 16 - ctx.keystreamOffset
            let toProcess := min input.length available
            let out := List.zipWith (· ^^^ ·) (input.take toProcess)
              (ctx.keystreamBlock.drop ctx.keystreamOffset)
            let (rest, ctx) := processLoop aes turns
              { ctx with keystreamOffset := ctx.keystreamOffset + toProcess }
              (input.drop toProcess)
            (out ++ rest, ctx)

end BcryptAesCtrContext

/-- What is put into `out`: its length is what the call returns. -/
def AesCtrCipher.process (aes : BlockCipher) (input : ByteString) :
    AesCtrCipher -> ByteString × AesCtrCipher
  | none => ([], none)
  | some ctx =>
      let (out, ctx) := ctx.processLoop aes input.length input
      (out, some ctx)

/-- The bytes of `out`, where all of the input is processed. -/
def AesCtrCipher.processAll (aes : BlockCipher) (input : ByteString)
    (cipher : AesCtrCipher) : Option ByteString × AesCtrCipher :=
  let (out, cipher) := cipher.process aes input
  (if out.length = input.length then some out else none, cipher)

theorem AesCtrCipher.length_processAll {aes : BlockCipher} {input out : ByteString}
    {cipher : AesCtrCipher}
    (hall : (cipher.processAll aes input).1 = some out) :
    out.length = input.length := by
  simp only [AesCtrCipher.processAll, Option.ite_none_right_eq_some] at hall
  rcases hall with ⟨hlength, hout⟩
  cases hout
  exact hlength

/-!
# The counter
-/

theorem length_incrementBytes (bs : ByteString) :
    (incrementBytes bs).length = bs.length := by
  induction bs with
  | nil => rfl
  | cons b rest ih =>
      unfold incrementBytes
      split
      · rfl
      · rw [List.length_cons, ih, List.length_cons]

@[simp] theorem length_incrementCounter (counter : ByteString) :
    (incrementCounter counter).length = counter.length := by
  unfold incrementCounter
  rw [List.length_reverse, length_incrementBytes, List.length_reverse]

theorem value_incrementBytes (bs : ByteString) :
    BigEndian.value (incrementBytes bs).reverse =
      (BigEndian.value bs.reverse + 1) % 256 ^ bs.length := by
  induction bs with
  | nil => rfl
  | cons b rest ih =>
      have hbound := BigEndian.value_lt rest.reverse
      have hb := b.toNat_lt
      rw [List.length_reverse] at hbound
      unfold incrementBytes
      rw [List.reverse_cons, BigEndian.value_push, List.length_cons, pow_succ]
      split
      · rename_i hnext
        have hless : b.toNat + 1 < 256 := by
          by_contra hnot
          apply hnext
          rw [← UInt8.toNat_inj, UInt8.toNat_add]
          have hlast : b.toNat = 255 := by omega
          rw [hlast]
          rfl
        have htoNat : (b + 1).toNat = b.toNat + 1 := by
          rw [UInt8.toNat_add]
          exact Nat.mod_eq_of_lt hless
        rw [List.reverse_cons, BigEndian.value_push, htoNat, ← Nat.add_assoc]
        refine (Nat.mod_eq_of_lt ?_).symm
        omega
      · rename_i hwraps
        have hlast : b.toNat = 255 := by
          rw [not_not, ← UInt8.toNat_inj, UInt8.toNat_add] at hwraps
          change (b.toNat + 1) % 256 = 0 at hwraps
          omega
        rw [List.reverse_cons, BigEndian.value_push, ih, hlast]
        have hzero : (0 : UInt8).toNat = 0 := rfl
        rw [hzero, Nat.add_zero, ← Nat.mul_mod_mul_right, Nat.add_mul,
          Nat.add_assoc]

theorem value_incrementCounter (counter : ByteString) :
    BigEndian.value (incrementCounter counter) =
      (BigEndian.value counter + 1) % 256 ^ counter.length := by
  have hvalue := value_incrementBytes counter.reverse
  rw [List.reverse_reverse, List.length_reverse] at hvalue
  exact hvalue

theorem length_incrementCounter_iterate (k : Nat) (counter : ByteString) :
    (incrementCounter^[k] counter).length = counter.length := by
  induction k with
  | zero => rfl
  | succ k ih => rw [Function.iterate_succ_apply', length_incrementCounter, ih]

theorem value_incrementCounter_iterate (k : Nat) (counter : ByteString) :
    BigEndian.value (incrementCounter^[k] counter) =
      (BigEndian.value counter + k) % 256 ^ counter.length := by
  induction k with
  | zero => exact (Nat.mod_eq_of_lt (BigEndian.value_lt counter)).symm
  | succ k ih =>
      rw [Function.iterate_succ_apply', value_incrementCounter, ih,
        length_incrementCounter_iterate, Nat.mod_add_mod, Nat.add_assoc]

/-!
# The keystream
-/

variable {aes : BlockCipher} {key iv : ByteString}

def BlockCipher.block (aes : BlockCipher) (key counter : ByteString) : ByteString :=
  (aes.encrypt key counter).getD []

def BlockCipher.keystream (aes : BlockCipher) (key iv : ByteString) : Keystream :=
  counterMode 16 incrementCounter (aes.block key) iv

theorem BlockCipher.Works.encrypt_eq (hworks : aes.Works key)
    {counter : ByteString}
    (hcounter : counter.length = 16) :
    aes.encrypt key counter = some (aes.block key counter) := by
  rcases Option.isSome_iff_exists.mp (hworks.encrypt counter hcounter) with
    ⟨out, hout⟩
  rw [BlockCipher.block, hout]
  rfl

theorem BlockCipher.Works.length_block (hworks : aes.Works key)
    {counter : ByteString}
    (hcounter : counter.length = 16) : (aes.block key counter).length = 16 :=
  aes.length_encrypt (hworks.encrypt_eq hcounter)

/-- A context that has made the keystream up to the position `p`. -/
structure AtPosition (aes : BlockCipher) (key iv : ByteString) (p : Nat)
    (ctx : BcryptAesCtrContext) : Prop where
  hKey : ctx.hKey = key
  counter : ctx.counter = incrementCounter^[(p + 15) / 16] iv
  between : p % 16 = 0 -> ctx.keystreamOffset = 16
  within : p % 16 ≠ 0 -> ctx.keystreamOffset = p % 16 ∧
    ctx.keystreamBlock = aes.block key (incrementCounter^[p / 16] iv)

/-- A context whose keystream block has the byte at the position `p`. -/
structure ReadyAt (aes : BlockCipher) (key iv : ByteString) (p : Nat)
    (ctx : BcryptAesCtrContext) : Prop where
  hKey : ctx.hKey = key
  counter : ctx.counter = incrementCounter^[p / 16 + 1] iv
  keystreamOffset : ctx.keystreamOffset = p % 16
  keystreamBlock : ctx.keystreamBlock = aes.block key (incrementCounter^[p / 16] iv)

theorem AtPosition.refill {ctx : BcryptAesCtrContext} {p : Nat}
    (hworks : aes.Works key)
    (hiv : iv.length = 16)
    (hat : AtPosition aes key iv p ctx) :
    exists ctx', ctx.refill aes = some ctx' ∧ ReadyAt aes key iv p ctx' := by
  unfold BcryptAesCtrContext.refill
  by_cases hp : p % 16 = 0
  · have hblocks : (p + 15) / 16 = p / 16 := by omega
    have hcounter := hat.counter
    rw [hblocks] at hcounter
    have hencrypt := hworks.encrypt_eq
      ((length_incrementCounter_iterate (p / 16) iv).trans hiv)
    rw [if_pos (Nat.le_of_eq (hat.between hp).symm), hat.hKey, hcounter, hencrypt]
    refine ⟨_, rfl, ⟨rfl, ?_, hp.symm, rfl⟩⟩
    exact (Function.iterate_succ_apply' incrementCounter (p / 16) iv).symm
  · have hblocks : (p + 15) / 16 = p / 16 + 1 := by omega
    have hcounter := hat.counter
    rw [hblocks] at hcounter
    rcases hat.within hp with ⟨hoffset, hblock⟩
    have hless : ¬ 16 ≤ ctx.keystreamOffset := by
      rw [hoffset]
      exact Nat.not_le.mpr (Nat.mod_lt p (Nat.zero_lt_succ 15))
    rw [if_neg hless]
    exact ⟨ctx, rfl, ⟨hat.hKey, hcounter, hoffset, hblock⟩⟩

theorem ReadyAt.advance {ctx : BcryptAesCtrContext} {p m : Nat}
    (hready : ReadyAt aes key iv p ctx)
    (hpositive : 0 < m)
    (hwithin : p % 16 + m ≤ 16) :
    AtPosition aes key iv (p + m)
      { ctx with keystreamOffset := ctx.keystreamOffset + m } := by
  refine ⟨hready.hKey, ?_, ?_, ?_⟩
  · have hblocks : (p + m + 15) / 16 = p / 16 + 1 := by omega
    rw [hblocks]
    exact hready.counter
  · intro hnext
    change ctx.keystreamOffset + m = 16
    rw [hready.keystreamOffset]
    omega
  · intro hnext
    have hblocks : (p + m) / 16 = p / 16 := by omega
    rw [hblocks]
    refine ⟨?_, hready.keystreamBlock⟩
    change ctx.keystreamOffset + m = (p + m) % 16
    rw [hready.keystreamOffset]
    omega

/-- The loop masks its input with the keystream from the position `p` on. -/
theorem processLoop_eq (hworks : aes.Works key)
    (hiv : iv.length = 16)
    {turns p : Nat} {ctx : BcryptAesCtrContext} {input : ByteString}
    (hat : AtPosition aes key iv p ctx)
    (hturns : input.length ≤ turns) :
    (ctx.processLoop aes turns input).1 = mask (aes.keystream key iv) p input ∧
      AtPosition aes key iv (p + input.length)
        (ctx.processLoop aes turns input).2 := by
  induction turns generalizing p ctx input with
  | zero =>
      rw [List.length_eq_zero_iff.mp (Nat.le_zero.mp hturns)]
      exact ⟨rfl, hat⟩
  | succ turns ih =>
      cases input with
      | nil => exact ⟨rfl, hat⟩
      | cons b rest =>
          obtain ⟨input, hinput⟩ : exists input, input = b :: rest := ⟨_, rfl⟩
          rw [← hinput] at hturns ⊢
          have hnonempty : input.isEmpty = false := by rw [hinput]; rfl
          have hpositive : 0 < input.length := by
            rw [hinput]
            exact Nat.zero_lt_succ _
          rcases hat.refill hworks hiv with ⟨ctx', hrefill, hready⟩
          obtain ⟨m, hm⟩ : exists m,
              m = min input.length (16 - ctx'.keystreamOffset) := ⟨_, rfl⟩
          have hmod := Nat.mod_lt p (Nat.zero_lt_succ 15)
          have hm' := hm
          rw [hready.keystreamOffset] at hm'
          have hmle : m ≤ input.length := by
            rw [hm']
            exact min_le_left _ _
          have hwithin : p % 16 + m ≤ 16 := by omega
          have hadvance := hready.advance (by omega : 0 < m) hwithin
          have hdropped : (input.drop m).length ≤ turns := by
            rw [List.length_drop]
            omega
          rcases ih hadvance hdropped with ⟨hrest, hend⟩
          have htaken : (input.take m).length = m := List.length_take_of_le hmle
          have hblock := (hworks.length_block
            ((length_incrementCounter_iterate (p / 16) iv).trans hiv))
          have hout : List.zipWith (· ^^^ ·) (input.take m)
              (ctx'.keystreamBlock.drop ctx'.keystreamOffset) =
                mask (aes.keystream key iv) p (input.take m) := by
            rw [hready.keystreamBlock, hready.keystreamOffset]
            refine (mask_counterMode ?_ hblock).symm
            rw [htaken]
            exact hwithin
          have hloop : ctx.processLoop aes (turns + 1) input =
              (mask (aes.keystream key iv) p (input.take m) ++
                (BcryptAesCtrContext.processLoop aes turns
                  { ctx' with keystreamOffset := ctx'.keystreamOffset + m }
                  (input.drop m)).1,
                (BcryptAesCtrContext.processLoop aes turns
                  { ctx' with keystreamOffset := ctx'.keystreamOffset + m }
                  (input.drop m)).2) := by
            rw [BcryptAesCtrContext.processLoop, hnonempty, hrefill, ← hout]
            simp only [Bool.false_eq_true, if_false, ← hm]
          rw [hloop, hrest]
          constructor
          · have happend := mask_append (aes.keystream key iv) p (input.take m)
              (input.drop m)
            rw [List.take_append_drop, htaken] at happend
            exact happend.symm
          · have hlength : p + m + (input.drop m).length = p + input.length := by
              rw [List.length_drop]
              omega
            rw [hlength] at hend
            exact hend

/-- A cipher that has made the keystream up to the position `p`. -/
def AesCtrCipher.At (aes : BlockCipher) (key iv : ByteString) (p : Nat)
    (cipher : AesCtrCipher) : Prop :=
  exists ctx, cipher = some ctx ∧ AtPosition aes key iv p ctx

theorem AesCtrCipher.create_at (hworks : aes.Works key)
    (hiv : iv.length = 16)
    (hvalid : validKeyIV key iv = true) :
    AesCtrCipher.At aes key iv 0 (AesCtrCipher.create aes key iv) := by
  unfold AesCtrCipher.create
  rw [hvalid, hworks.setup]
  refine ⟨_, rfl, ⟨rfl, ?_, fun _ => rfl, fun h => absurd rfl h⟩⟩
  exact List.take_of_length_le (Nat.le_of_eq hiv)

theorem AesCtrCipher.At.process (hworks : aes.Works key)
    (hiv : iv.length = 16)
    {p : Nat} {cipher : AesCtrCipher}
    (hat : AesCtrCipher.At aes key iv p cipher)
    (input : ByteString) :
    (cipher.process aes input).1 = mask (aes.keystream key iv) p input ∧
      AesCtrCipher.At aes key iv (p + input.length) (cipher.process aes input).2 := by
  rcases hat with ⟨ctx, hcipher, hat⟩
  rcases processLoop_eq hworks hiv hat (Nat.le_refl input.length) with ⟨hout, hend⟩
  rw [hcipher]
  exact ⟨hout, _, rfl, hend⟩

theorem AesCtrCipher.At.processAll (hworks : aes.Works key)
    (hiv : iv.length = 16)
    {p : Nat} {cipher : AesCtrCipher}
    (hat : AesCtrCipher.At aes key iv p cipher)
    (input : ByteString) :
    exists cipher',
      cipher.processAll aes input =
        (some (mask (aes.keystream key iv) p input), cipher') ∧
      AesCtrCipher.At aes key iv (p + input.length) cipher' := by
  rcases hat.process hworks hiv input with ⟨hout, hend⟩
  refine ⟨_, ?_, hend⟩
  simp only [AesCtrCipher.processAll, hout, length_mask, if_true]

/-!
# Known blocks
-/

abbrev BlockTable : Type := List (ByteString × ByteString)

def BlockTable.Whole (table : BlockTable) : Prop :=
  forall e, e ∈ table -> e.1.length = 16 ∧ e.2.length = 16

/-- The blocks of the table change places with what they are encrypted to. -/
def BlockTable.lookUp : BlockTable -> ByteString -> ByteString
  | [], block => block
  | (plain, out) :: rest, block =>
      BlockTable.lookUp rest (Equiv.swap plain out block)

theorem BlockTable.length_lookUp {table : BlockTable} {block : ByteString}
    (hwhole : table.Whole)
    (hblock : block.length = 16) : (table.lookUp block).length = 16 := by
  induction table generalizing block with
  | nil => exact hblock
  | cons e rest ih =>
      rcases hwhole e List.mem_cons_self with ⟨hplain, hout⟩
      refine ih (fun x hx => hwhole x (List.mem_cons_of_mem _ hx)) ?_
      rw [Equiv.swap_apply_def]
      split
      · exact hout
      · split
        · exact hplain
        · exact hblock

theorem BlockTable.lookUp_injective {table : BlockTable} {block block' : ByteString}
    (hsame : table.lookUp block = table.lookUp block') : block = block' := by
  induction table generalizing block block' with
  | nil => exact hsame
  | cons e rest ih => exact (Equiv.swap e.1 e.2).injective (ih hsame)

/-- A cipher of which no more is known than these blocks under this key. -/
def BlockCipher.ofTable (key : ByteString) (table : BlockTable)
    (hwhole : table.Whole) : BlockCipher where
  setup k := k == key
  encrypt k block :=
    if k = key ∧ block.length = 16 then some (table.lookUp block) else none
  length_encrypt := by
    intro k block out hout
    rw [Option.ite_none_right_eq_some] at hout
    rcases hout with ⟨⟨_, hblock⟩, hsome⟩
    cases hsome
    exact BlockTable.length_lookUp hwhole hblock

theorem BlockCipher.ofTable_encrypt {key : ByteString} {table : BlockTable}
    (hwhole : table.Whole)
    {block : ByteString}
    (hblock : block.length = 16) :
    (BlockCipher.ofTable key table hwhole).encrypt key block =
      some (table.lookUp block) :=
  if_pos ⟨rfl, hblock⟩

theorem BlockCipher.ofTable_works (key : ByteString) (table : BlockTable)
    (hwhole : table.Whole) :
    (BlockCipher.ofTable key table hwhole).Works key where
  setup := beq_self_eq_true key
  encrypt block hblock := by
    rw [BlockCipher.ofTable_encrypt hwhole hblock]
    rfl

theorem BlockCipher.ofTable_permutes (key : ByteString) (table : BlockTable)
    (hwhole : table.Whole) :
    (BlockCipher.ofTable key table hwhole).Permutes key := by
  intro block block' hblock hblock' hsame
  rw [BlockCipher.ofTable_encrypt hwhole hblock,
    BlockCipher.ofTable_encrypt hwhole hblock'] at hsame
  exact BlockTable.lookUp_injective (Option.some.inj hsame)

/-- The key of 32 zero bytes. -/
def zeroKey : ByteString := List.replicate 32 0

def zeroBlock : ByteString := List.replicate 16 0

/-- A vector whose low half is about to wrap around. -/
def lastLowIV : ByteString := List.replicate 8 0 ++ List.replicate 8 255

/-- What AES-256 makes of some blocks under the key of zeros. -/
def zeroKeyBlocks : BlockTable :=
  [(zeroBlock,
      [220, 149, 192, 120, 162, 64, 137, 137, 173, 72, 162, 20, 146, 132, 32, 135]),
    (incrementCounter zeroBlock,
      [83, 15, 138, 251, 199, 69, 54, 185, 169, 99, 180, 241, 196, 203, 115, 139]),
    (lastLowIV,
      [85, 237, 118, 148, 141, 40, 134, 191, 255, 80, 227, 53, 43, 254, 52, 253]),
    (incrementCounter lastLowIV,
      [245, 149, 110, 223, 2, 189, 54, 164, 1, 187, 182, 206, 119, 195, 211, 251])]

def zeroKeyAes : BlockCipher :=
  BlockCipher.ofTable zeroKey zeroKeyBlocks (by unfold BlockTable.Whole; decide)

theorem zeroKeyAes_works : zeroKeyAes.Works zeroKey := BlockCipher.ofTable_works _ _ _

end Crypto
end OssSdk
