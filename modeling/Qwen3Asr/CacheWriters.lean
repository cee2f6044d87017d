import Qwen3Asr.BlockOwnership
import Qwen3Asr.CallHistory

/-! The token each entry of the paged cache was last written for. A history of calls is sound when
every call reads, through the block tables of its rows, what was written for the same tokens. -/
namespace Qwen3Asr.CacheWriters
open Library.Holding Library.Effect Library.Word
open BlockManager PagedMetadata BatchEngine DecodeOutcome PrefillOutcome CallHistory

variable {φ : Type}

structure Writer where
  requestId : Nat
  position : Nat
  deriving DecidableEq, Repr

section History

def writers (call : ForwardCall φ) : List Writer :=
  match call.metadata.queryLens with
  | some lens => (call.requestIds.zip lens).flatMap fun p => (List.range p.2).map (Writer.mk p.1)
  | none => (call.requestIds.zip call.metadata.contextLens).map fun p => ⟨p.1,p.2-1⟩

/- Padding is written nowhere. -/
def liveSlots (call : ForwardCall φ) : List Int := call.metadata.slotMapping.filter (· ≠ padSlotId)

def writes (call : ForwardCall φ) : List (Int × Writer) := (liveSlots call).zip (writers call)

/- Histories hold the newest call first. -/
def lastWriter (history : List (ForwardCall φ)) (slot : Nat) : Option Writer :=
  (history.flatMap writes).lookup (slot : Int)

def tokensFed (requestId : Nat) : List (ForwardCall φ) → Nat
  | [] => 0
  | call::older =>
    if requestId ∈ call.requestIds then match call.metadata.queryLens with
      | some lens => lens.getD (call.requestIds.idxOf requestId) 0
      | none => tokensFed requestId older+1
    else tokensFed requestId older

def entrySlot (blockSize : Nat) (table : List Nat) (position : Nat) : Nat :=
  table.getD (position/blockSize) 0*blockSize+position%blockSize

structure RowReads (blockSize : Nat) (history : List (ForwardCall φ)) (call : ForwardCall φ) (i requestId : Nat) : Prop where
  context : call.metadata.contextLens[i]? = some (tokensFed requestId history)
  covered : ∀ p < tokensFed requestId history, p/blockSize < (call.metadata.blockTables.getD i []).length
  reads : ∀ p < tokensFed requestId history,
    lastWriter history (entrySlot blockSize (call.metadata.blockTables.getD i []) p) = some ⟨requestId,p⟩

structure CallSound (blockSize : Nat) (older : List (ForwardCall φ)) (call : ForwardCall φ) : Prop where
  once : call.requestIds.Nodup
  slots : (liveSlots call).Nodup
  counted : (liveSlots call).length = (writers call).length
  /-- A prompt is prefilled under an id of its own. -/
  fresh : call.metadata.queryLens.isSome → ∀ requestId ∈ call.requestIds, ∀ past ∈ older, requestId ∉ past.requestIds
  rows : ∀ i requestId, call.requestIds[i]? = some requestId → RowReads blockSize (call::older) call i requestId

def Sound (blockSize : Nat) : List (ForwardCall φ) → Prop
  | [] => True
  | call::older => CallSound blockSize older call ∧ Sound blockSize older

end History

section Writes
variable {history : List (ForwardCall φ)} {call : ForwardCall φ} {slot : Nat} {w : Writer}

theorem lastWriterCons : lastWriter (call::history) slot = ((writes call).lookup (slot : Int)).or (lastWriter history slot) := by
  unfold lastWriter
  rw [List.flatMap_cons,List.lookup_append]

theorem lastWriterOlder (out : (slot : Int) ∉ liveSlots call) : lastWriter (call::history) slot = lastWriter history slot := by
  have none_ : (writes call).lookup (slot : Int) = none := by
    rw [List.lookup_eq_none_iff]
    intro p inside
    simp only [bne_iff_ne,ne_eq]
    rintro same
    exact out (same ▸ (List.of_mem_zip inside).1)
  rw [lastWriterCons,none_,Option.none_or]

theorem lastWriterNew (slots : (liveSlots call).Nodup) (inside : ((slot : Int),w) ∈ writes call) :
    lastWriter (call::history) slot = some w := by
  have found : (writes call).lookup (slot : Int) = some w := by
    unfold writes at inside ⊢
    generalize liveSlots call = xs at slots inside
    generalize writers call = ys at inside
    induction xs generalizing ys with
    | nil => cases inside
    | cons x xs ih =>
      cases ys with
      | nil => cases inside
      | cons y ys =>
        obtain ⟨out,rest⟩ := List.nodup_cons.mp slots
        rcases List.mem_cons.mp inside with same | later
        · cases same
          exact List.lookup_cons_self
        · have apart : (slot : Int) ≠ x := fun same => out (same ▸ (List.of_mem_zip later).1)
          rw [List.zip_cons_cons,List.lookup_cons,show ((slot : Int) == x) = false by simpa using apart]
          exact ih rest _ later
  rw [lastWriterCons,found,Option.some_or]

end Writes

section Placed

def Placed (m : PagedBlockManager) (blockSize : Nat) (w : Writer) (slot : Nat) : Prop :=
  ∃ b, (table m w.requestId)[w.position/blockSize]? = some b ∧ slot = b*blockSize+w.position%blockSize

variable {m t : PagedBlockManager} {numBlocks blockSize slot : Nat} {v w : Writer}

theorem placedGrows (grows : table m w.requestId <+: table t w.requestId) (placed : Placed m blockSize w slot) :
    Placed t blockSize w slot := by
  obtain ⟨b,found,same⟩ := placed
  obtain ⟨rest,equal⟩ := grows
  refine ⟨b,?_,same⟩
  rw [← equal,List.getElem?_append_left (List.getElem?_eq_some_iff.mp found).1]
  exact found

theorem placedOnce {l : Blocks numBlocks} (r : Represents l m) (positive : 0 < blockSize)
    (left : Placed m blockSize v slot) (right : Placed m blockSize w slot) : v = w := by
  obtain ⟨b,atLeft,rfl⟩ := left
  obtain ⟨c,atRight,same⟩ := right
  have blocks : b = c := by
    have halves := congrArg (·/blockSize) same
    simpa [Nat.mul_comm _ blockSize,Nat.mul_add_div positive,
      Nat.div_eq_of_lt (Nat.mod_lt _ positive)] using halves
  subst c
  have once := l.once List.nodup_range'
  rw [← r.blocks] at once
  obtain ⟨owner,index⟩ := heldInjective once atLeft atRight
  obtain ⟨j,p⟩ := v
  obtain ⟨k,q⟩ := w
  dsimp only at same owner index
  have offsets : p%blockSize = q%blockSize := by omega
  rw [owner,← Nat.div_add_mod p blockSize,← Nat.div_add_mod q blockSize,index,offsets]

theorem placedEntry {row pad : List Nat} (same : row = table m w.requestId ++ pad) (placed : Placed m blockSize w slot) :
    entrySlot blockSize row w.position = slot := by
  obtain ⟨b,found,rfl⟩ := placed
  have inside := (List.getElem?_eq_some_iff.mp found).1
  rw [entrySlot,same,List.getD_eq_getElem?_getD,List.getElem?_append_left inside,found]
  rfl

theorem slotPlaced {word : String} {seq requestId position : Nat} {slot : Int}
    (ok : slotInTable word blockSize numBlocks seq (table m requestId) position = .ok slot) :
    ∃ s : Nat, slot = s ∧ Placed m blockSize ⟨requestId,position⟩ s := by
  obtain ⟨b,found,_,_,rfl⟩ := slotInTableOk.mp ok
  exact ⟨_,rfl,b,found,rfl⟩

end Placed

structure CallPlaced (m : PagedBlockManager) (blockSize : Nat) (call : ForwardCall φ) : Prop where
  once : (writers call).Nodup
  each : List.Forall₂ (fun (slot : Int) w => ∃ s : Nat, slot = s ∧ Placed m blockSize w s) (liveSlots call) (writers call)
  tables : ∀ i requestId, call.requestIds[i]? = some requestId →
    ∃ pad, call.metadata.blockTables.getD i [] = table m requestId ++ pad

section Placing
variable {m t : PagedBlockManager} {numBlocks blockSize n : Nat} {call : ForwardCall φ} {history : List (ForwardCall φ)}
  {slot requestId : Nat} {w : Writer}

theorem placedWrite (placed : CallPlaced m blockSize call) (inside : w ∈ writers call) :
    ∃ s : Nat, ((s : Int),w) ∈ writes call ∧ Placed m blockSize w s := by
  obtain ⟨i,bound,rfl⟩ := List.getElem_of_mem inside
  have lengths := placed.each.length_eq
  obtain ⟨s,same,there⟩ := (List.forall₂_iff_get.mp placed.each).2 i (by omega) bound
  refine ⟨s,List.mem_iff_getElem.mpr ⟨i,by simp [writes]; omega,?_⟩,there⟩
  simp only [List.get_eq_getElem] at same
  simp [writes,same]

theorem placedWriter (placed : CallPlaced m blockSize call) (inside : (slot : Int) ∈ liveSlots call) :
    ∃ w ∈ writers call, Placed m blockSize w slot := by
  obtain ⟨w,there,s,same,at_⟩ := pairedMem placed.each inside
  obtain rfl := Int.ofNat.inj same
  exact ⟨w,there,at_⟩

theorem placedSlots {l : Blocks numBlocks} (r : Represents l m) (positive : 0 < blockSize)
    (placed : CallPlaced m blockSize call) : (liveSlots call).Nodup := by
  have lengths := placed.each.length_eq
  rw [List.nodup_iff_injective_getElem]
  rintro ⟨i,left⟩ ⟨j,right⟩ same
  obtain ⟨s,atLeft,first⟩ := (List.forall₂_iff_get.mp placed.each).2 i left (by omega)
  obtain ⟨s',atRight,second⟩ := (List.forall₂_iff_get.mp placed.each).2 j right (by omega)
  simp only [List.get_eq_getElem] at atLeft atRight same first second
  rw [same,atRight] at atLeft
  obtain rfl := Int.ofNat.inj atLeft
  have equal := placedOnce r positive first second
  exact Fin.ext ((placed.once.getElem_inj_iff).mp equal)

/- The first `n` tokens of a request are in the cache, at the slots of its table. -/
def Written (m : PagedBlockManager) (blockSize : Nat) (history : List (ForwardCall φ)) (requestId n : Nat) : Prop :=
  ∀ p < n, ∃ slot, Placed m blockSize ⟨requestId,p⟩ slot ∧ lastWriter history slot = some ⟨requestId,p⟩

theorem writtenGrows (grows : table m requestId <+: table t requestId) (written : Written m blockSize history requestId n) :
    Written t blockSize history requestId n := fun p less => by
  obtain ⟨slot,placed,last⟩ := written p less
  exact ⟨slot,placedGrows grows placed,last⟩

/- Behind a call stand its own tokens and, untouched, those of before that it did not write. -/
theorem writtenCall {l : Blocks numBlocks} (r : Represents l m) (positive : 0 < blockSize) (placed : CallPlaced m blockSize call)
    (each : ∀ p < n, ⟨requestId,p⟩ ∈ writers call ∨ ∃ slot, Placed m blockSize ⟨requestId,p⟩ slot ∧
      lastWriter history slot = some ⟨requestId,p⟩) :
    Written m blockSize (call::history) requestId n := by
  intro p less
  by_cases own : (⟨requestId,p⟩ : Writer) ∈ writers call
  · obtain ⟨slot,inside,at_⟩ := placedWrite placed own
    exact ⟨slot,at_,lastWriterNew (placedSlots r positive placed) inside⟩
  · obtain ⟨slot,at_,last⟩ := (each p less).resolve_left own
    refine ⟨slot,at_,?_⟩
    rw [lastWriterOlder fun inside => ?_,last]
    obtain ⟨w,there,same⟩ := placedWriter placed inside
    exact own (placedOnce r positive same at_ ▸ there)

theorem writtenCovers {row pad : List Nat} (same : row = table m requestId ++ pad)
    (written : Written m blockSize history requestId n) : ∀ p < n, p/blockSize < row.length := by
  intro p less
  obtain ⟨_,⟨b,found,_⟩,_⟩ := written p less
  have inside := (List.getElem?_eq_some_iff.mp found).1
  rw [same,List.length_append]
  exact Nat.lt_add_right _ inside

theorem writtenReads {row pad : List Nat} (same : row = table m requestId ++ pad)
    (written : Written m blockSize history requestId n) :
    ∀ p < n, lastWriter history (entrySlot blockSize row p) = some ⟨requestId,p⟩ := by
  intro p less
  obtain ⟨slot,placed,last⟩ := written p less
  rw [placedEntry (w := ⟨requestId,p⟩) same placed]
  exact last

end Placing

end Qwen3Asr.CacheWriters
