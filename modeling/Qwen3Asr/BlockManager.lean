import Mathlib.Algebra.Order.Floor.Div
import Qwen3Asr.Library.Effect
import Qwen3Asr.Library.Holdings

/-! The paged KV block manager. Token counts and block ids are naturals; block 0
is never in the free list it starts from. Every operation keeps the state it had
when it fails, so the state is threaded through errors as well. -/
namespace Qwen3Asr.BlockManager
open Library.Holding Library.Effect

structure PagedBlockManager where
  blockSize : Nat
  free : List Nat
  requestBlocks : Holdings Nat Nat
  deriving DecidableEq

abbrev Managed := EStateM String PagedBlockManager

def new (numBlocks blockSize : Nat) : PagedBlockManager :=
  ⟨blockSize,List.range' 1 (numBlocks-1),∅⟩

def table (m : PagedBlockManager) (requestId : Nat) : List Nat := held m.requestBlocks requestId

def freeBlocks (m : PagedBlockManager) : Nat := m.free.length

def blocksForRequest (m : PagedBlockManager) (requestId : Nat) : Nat := (table m requestId).length

def slotsAvailableFor (m : PagedBlockManager) (requestId numTokens : Nat) : Bool :=
  let required := numTokens ⌈/⌉ m.blockSize
  let existing := blocksForRequest m requestId
  let needed := required - existing
  needed ≤ m.free.length

def allocatableBlockCapacity (numBlocks : Nat) : Nat := numBlocks - 1

-- One turn for each block still needed; the underflow branch is the `ok_or_else` of the source.
def popBlocks : Nat → EStateM String (List Nat × List Nat) Unit
  | 0 => pure ()
  | n+1 => fun
    | ([],ids) => .error "paged KV free list underflow" ([],ids)
    | (b::free,ids) => popBlocks n (free,ids ++ [b])

def tryAllocateSlots (requestId numTokens : Nat) : Managed Bool := fun m =>
  let required := numTokens ⌈/⌉ m.blockSize
  let existing := blocksForRequest m requestId
  let needed := required - existing
  if needed = 0 then .ok true m
  else if m.free.length < needed then .ok false m
  else match popBlocks needed (m.free,table m requestId) with
    | .ok _ (free,ids) =>
      .ok true {m with free := free, requestBlocks := m.requestBlocks.insert requestId ids}
    | .error e (free,ids) =>
      .error e {m with free := free, requestBlocks := m.requestBlocks.insert requestId ids}

def allocateSlots (requestId numTokens : Nat) : Managed Unit := do
  let granted ← tryAllocateSlots requestId numTokens
  if granted then pure () else
    let m ← get
    let freeBlocks := m.free.length
    throw s!"paged KV cache exhausted: request_id={requestId} num_tokens={numTokens} free_blocks={freeBlocks}"

/- Freed tail blocks go back in reverse order; the null block would be dropped. -/
def trimRequestToNumTokens (m : PagedBlockManager) (requestId numTokens : Nat) : PagedBlockManager :=
  let numRequiredBlocks := numTokens ⌈/⌉ m.blockSize
  match m.requestBlocks.lookup requestId with
  | none => m
  | some ids =>
    if ids.length ≤ numRequiredBlocks then m else
      let removed := (ids.drop numRequiredBlocks).reverse
      {m with
        free := m.free ++ removed.filter (· ≠ 0)
        requestBlocks := m.requestBlocks.insert requestId (ids.take numRequiredBlocks)}

def blockIds (m : PagedBlockManager) (requestId : Nat) : Except String (List Nat) :=
  match m.requestBlocks.lookup requestId with
  | some ids => .ok ids
  | none => .error s!"paged KV request has no allocated blocks: request_id={requestId}"

def freeRequest (m : PagedBlockManager) (requestId : Nat) : PagedBlockManager :=
  match m.requestBlocks.lookup requestId with
  | none => m
  | some ids =>
    {m with
      free := m.free ++ ids.reverse.filter (· ≠ 0)
      requestBlocks := m.requestBlocks.erase requestId}

def freeMany (m : PagedBlockManager) (requestIds : List Nat) : PagedBlockManager :=
  requestIds.foldl freeRequest m

def blockTablesFor (m : PagedBlockManager) (requestIds : List Nat) : Except String (List (List Nat)) :=
  requestIds.mapM (blockIds m)

theorem popBlocksTake {n : Nat} {free ids : List Nat} (enough : n ≤ free.length) :
    popBlocks n (free,ids) = .ok () (free.drop n,ids ++ free.take n) := by
  induction n generalizing free ids with
  | zero => simp [popBlocks,pure,EStateM.pure]
  | succ n ih =>
    cases free with
    | nil => simp at enough
    | cons b free =>
      simp only [popBlocks,ih (Nat.le_of_succ_le_succ enough)]
      simp

def needed (m : PagedBlockManager) (requestId numTokens : Nat) : Nat :=
  numTokens ⌈/⌉ m.blockSize - blocksForRequest m requestId

def granted (m : PagedBlockManager) (requestId n : Nat) : PagedBlockManager :=
  {m with
    free := m.free.drop n
    requestBlocks := m.requestBlocks.insert requestId (table m requestId ++ m.free.take n)}

theorem tryAllocateCases (m : PagedBlockManager) (requestId numTokens : Nat) :
    (needed m requestId numTokens = 0 ∧ tryAllocateSlots requestId numTokens m = .ok true m) ∨
    (m.free.length < needed m requestId numTokens ∧
      tryAllocateSlots requestId numTokens m = .ok false m) ∨
    (0 < needed m requestId numTokens ∧ needed m requestId numTokens ≤ m.free.length ∧
      tryAllocateSlots requestId numTokens m =
        .ok true (granted m requestId (needed m requestId numTokens))) := by
  change (_ ∧ (if needed m requestId numTokens = 0 then _ else _) = _) ∨
    (_ ∧ (if needed m requestId numTokens = 0 then _ else _) = _) ∨
    (_ ∧ _ ∧ (if needed m requestId numTokens = 0 then _ else _) = _)
  split
  · rename_i zero
    exact .inl ⟨zero,rfl⟩
  · rename_i zero
    have positive := Nat.pos_of_ne_zero zero
    split
    · rename_i short
      exact .inr (.inl ⟨short,rfl⟩)
    · rename_i long
      have enough : needed m requestId numTokens ≤ m.free.length := Nat.le_of_not_lt long
      refine .inr (.inr ⟨positive,enough,?_⟩)
      have pops : popBlocks (needed m requestId numTokens) (m.free,table m requestId) =
        .ok () (_,_) := popBlocksTake enough
      change (match popBlocks (needed m requestId numTokens) (m.free,table m requestId) with
        | .ok _ (free,ids) => _
        | .error e (free,ids) => _) = _
      rw [pops]
      rfl

theorem refusedIff (m : PagedBlockManager) (requestId numTokens : Nat) :
    tryAllocateSlots requestId numTokens m = .ok false m ↔
      slotsAvailableFor m requestId numTokens = false := by
  have available : slotsAvailableFor m requestId numTokens =
      decide (needed m requestId numTokens ≤ m.free.length) := rfl
  rcases tryAllocateCases m requestId numTokens with ⟨zero,same⟩ | ⟨short,same⟩ | ⟨_,enough,same⟩
  · simp [same,available,zero]
  · simp [same,available,short]
  · simp [same,available,enough]

theorem allocateCases (m : PagedBlockManager) (requestId numTokens : Nat) :
    (∃ e, allocateSlots requestId numTokens m = .error e m ∧
      tryAllocateSlots requestId numTokens m = .ok false m) ∨
    (∃ t, allocateSlots requestId numTokens m = .ok () t ∧
      tryAllocateSlots requestId numTokens m = .ok true t) := by
  rcases tryAllocateCases m requestId numTokens with ⟨_,same⟩ | ⟨_,same⟩ | ⟨_,_,same⟩
  · exact .inr ⟨_,bindThen same,same⟩
  · exact .inl ⟨_,bindThen same,same⟩
  · exact .inr ⟨_,bindThen same,same⟩

abbrev Blocks (numBlocks : Nat) := Ledger Nat Nat (List.range' 1 (numBlocks-1))

structure Represents {numBlocks : Nat} (l : Blocks numBlocks) (m : PagedBlockManager) : Prop where
  free : m.free = l.free
  blocks : m.requestBlocks = l.holdings

theorem newRepresents (numBlocks blockSize : Nat) :
    Represents (Ledger.fresh _ : Blocks numBlocks) (new numBlocks blockSize) := ⟨rfl,rfl⟩

theorem blockPositive {numBlocks : Nat} (l : Blocks numBlocks) {b : Nat}
    (inside : b ∈ contents l.holdings) : 0 < b := by
  have member := l.mem inside
  rw [List.mem_range'_1] at member
  omega

/- The null block is in no table, so the guard of the pushes drops nothing. -/
theorem nullNeverFreed {numBlocks : Nat} {l : Blocks numBlocks} {k : Nat} {bs : List Nat}
    (inside : bs ⊆ held l.holdings k) : bs.filter (· ≠ 0) = bs := by
  apply List.filter_eq_self.mpr
  intro b member
  have positive := blockPositive l (heldSubset (inside member))
  simp only [decide_eq_true_eq]
  omega

section Refinement
variable {numBlocks : Nat} {l : Blocks numBlocks} {m : PagedBlockManager}

theorem grantedRepresents (r : Represents l m) (requestId n : Nat) :
    Represents (l.grow requestId n) (granted m requestId n) := by
  constructor <;> simp [granted,Ledger.grow,table,r.free,r.blocks]

theorem trimRepresents (r : Represents l m) (requestId numTokens : Nat) :
    ∃ l' : Blocks numBlocks, Represents l' (trimRequestToNumTokens m requestId numTokens) := by
  unfold trimRequestToNumTokens
  split
  · exact ⟨l,r⟩
  · rename_i ids found
    dsimp only
    split
    · exact ⟨l,r⟩
    · have content : held l.holdings requestId = ids := by rw [← r.blocks]; simp [held,found]
      have kept : ((ids.drop (numTokens ⌈/⌉ m.blockSize)).reverse).filter (· ≠ 0) =
          (ids.drop (numTokens ⌈/⌉ m.blockSize)).reverse :=
        nullNeverFreed (l := l) (k := requestId) (by
          rw [content]
          intro b member
          exact List.mem_of_mem_drop (List.mem_reverse.mp member))
      rw [kept]
      refine ⟨l.shrink requestId (numTokens ⌈/⌉ m.blockSize),?_⟩
      constructor <;> simp [Ledger.shrink,r.free,r.blocks,content]

theorem freeRepresents (r : Represents l m) (requestId : Nat) :
    ∃ l' : Blocks numBlocks, Represents l' (freeRequest m requestId) := by
  unfold freeRequest
  split
  · exact ⟨l,r⟩
  · rename_i ids found
    have content : held l.holdings requestId = ids := by rw [← r.blocks]; simp [held,found]
    have kept : ids.reverse.filter (· ≠ 0) = ids.reverse :=
      nullNeverFreed (l := l) (k := requestId) (by rw [content]; simp)
    rw [kept]
    refine ⟨l.release requestId,?_⟩
    constructor <;> simp [Ledger.release,r.free,r.blocks,content]

theorem freeManyRepresents (r : Represents l m) (requestIds : List Nat) :
    ∃ l' : Blocks numBlocks, Represents l' (freeMany m requestIds) := by
  induction requestIds generalizing l m with
  | nil => exact ⟨l,r⟩
  | cons k ks ih =>
    obtain ⟨l',r'⟩ := freeRepresents r k
    exact ih r'

end Refinement

inductive Op where
  | tryAllocateSlots (requestId numTokens : Nat)
  | allocateSlots (requestId numTokens : Nat)
  | trimRequestToNumTokens (requestId numTokens : Nat)
  | freeRequest (requestId : Nat)
  | freeMany (requestIds : List Nat)
  deriving DecidableEq, Repr

def apply : Op → Managed Bool
  | .tryAllocateSlots k n => tryAllocateSlots k n
  | .allocateSlots k n => do allocateSlots k n; pure true
  | .trimRequestToNumTokens k n => fun m => .ok true (trimRequestToNumTokens m k n)
  | .freeRequest k => fun m => .ok true (freeRequest m k)
  | .freeMany ks => fun m => .ok true (freeMany m ks)

def Succeeded {σ : Type} : EStateM.Result String σ Bool → Prop
  | .ok granted _ => granted = true
  | .error _ _ => False

def runOps (m : PagedBlockManager) (ops : List Op) : PagedBlockManager :=
  ops.foldl (fun m op => after (apply op m)) m

theorem applyAllocate (m : PagedBlockManager) (requestId numTokens : Nat) :
    (∃ e, apply (.allocateSlots requestId numTokens) m = .error e m) ∨
    (∃ t, apply (.allocateSlots requestId numTokens) m = .ok true t ∧
      tryAllocateSlots requestId numTokens m = .ok true t) := by
  rcases allocateCases m requestId numTokens with ⟨e,same,_⟩ | ⟨t,same,ok⟩
  · exact .inl ⟨e,by simp [apply,bind,EStateM.bind,same]⟩
  · exact .inr ⟨t,by simp [apply,bind,EStateM.bind,same,pure,EStateM.pure],ok⟩

theorem tryAllocateRepresents {numBlocks : Nat} {l : Blocks numBlocks} {m : PagedBlockManager}
    (r : Represents l m) (requestId numTokens : Nat) :
    ∃ l' : Blocks numBlocks, Represents l' (after (tryAllocateSlots requestId numTokens m)) := by
  rcases tryAllocateCases m requestId numTokens with ⟨_,same⟩ | ⟨_,same⟩ | ⟨_,_,same⟩ <;> rw [same]
  · exact ⟨l,r⟩
  · exact ⟨l,r⟩
  · exact ⟨_,grantedRepresents r _ _⟩

theorem applyRepresents {numBlocks : Nat} {l : Blocks numBlocks} {m : PagedBlockManager}
    (r : Represents l m) (op : Op) : ∃ l' : Blocks numBlocks, Represents l' (after (apply op m)) := by
  cases op with
  | tryAllocateSlots k n => exact tryAllocateRepresents r k n
  | allocateSlots k n =>
    rcases applyAllocate m k n with ⟨e,same⟩ | ⟨t,same,ok⟩
    · rw [same]; exact ⟨l,r⟩
    · have grown := tryAllocateRepresents r k n
      rw [ok] at grown
      rw [same]
      exact grown
  | trimRequestToNumTokens k n => exact trimRepresents r k n
  | freeRequest k => exact freeRepresents r k
  | freeMany ks => exact freeManyRepresents r ks

theorem runRepresents {numBlocks : Nat} {l : Blocks numBlocks} {m : PagedBlockManager}
    (r : Represents l m) (ops : List Op) : ∃ l' : Blocks numBlocks, Represents l' (runOps m ops) := by
  induction ops generalizing l m with
  | nil => exact ⟨l,r⟩
  | cons op ops ih =>
    obtain ⟨l',r'⟩ := applyRepresents r op
    exact ih r'

theorem failureUnchanged (m : PagedBlockManager) (op : Op) (failed : ¬ Succeeded (apply op m)) :
    after (apply op m) = m := by
  cases op with
  | tryAllocateSlots k n =>
    change ¬ Succeeded (tryAllocateSlots k n m) at failed
    change after (tryAllocateSlots k n m) = m
    rcases tryAllocateCases m k n with ⟨_,same⟩ | ⟨_,same⟩ | ⟨_,_,same⟩ <;> rw [same] at failed ⊢
    · rfl
    · rfl
    · exact absurd rfl failed
  | allocateSlots k n =>
    rcases applyAllocate m k n with ⟨e,same⟩ | ⟨t,same,_⟩ <;> rw [same] at failed ⊢
    · rfl
    · exact absurd rfl failed
  | trimRequestToNumTokens k n => exact absurd rfl failed
  | freeRequest k => exact absurd rfl failed
  | freeMany ks => exact absurd rfl failed

/- What a grant leaves: enough blocks, the former table in front, the rest of the pool as it was. -/
theorem grantCovers {m t : PagedBlockManager} {requestId numTokens : Nat}
    (ok : tryAllocateSlots requestId numTokens m = .ok true t) :
    numTokens ⌈/⌉ m.blockSize ≤ (table t requestId).length ∧
      table m requestId <+: table t requestId := by
  have required : needed m requestId numTokens =
      numTokens ⌈/⌉ m.blockSize - (table m requestId).length := rfl
  rcases tryAllocateCases m requestId numTokens with ⟨zero,same⟩ | ⟨_,same⟩ | ⟨positive,enough,same⟩
  all_goals rw [ok] at same
  · cases same
    exact ⟨by omega,List.prefix_refl _⟩
  · cases same
  · cases same
    have grown : table (granted m requestId (needed m requestId numTokens)) requestId =
        table m requestId ++ m.free.take (needed m requestId numTokens) := heldInsert _ _ _
    rw [grown]
    refine ⟨?_,List.prefix_append _ _⟩
    simp only [List.length_append,List.length_take,Nat.min_eq_left enough]
    omega

theorem blockTablesForOk {m : PagedBlockManager} {requestIds : List Nat} {tables : List (List Nat)}
    (ok : blockTablesFor m requestIds = .ok tables) : tables = requestIds.map (table m) := by
  have pairs := exceptMapM.mp ok
  have same : List.Forall₂ (fun k ids => table m k = ids) requestIds tables := by
    refine pairs.imp fun k ids found => ?_
    unfold blockIds at found
    split at found <;> try contradiction
    rename_i found'
    cases found
    simp [table,held,found']
  clear pairs ok
  induction same with
  | nil => rfl
  | cons head _ ih => simp [head,ih]

theorem tableAt {m : PagedBlockManager} {requestIds : List Nat} {tables : List (List Nat)} {seq requestId : Nat}
    (ok : blockTablesFor m requestIds = .ok tables) (found : requestIds[seq]? = some requestId) :
    tables[seq]? = some (table m requestId) := by
  simp [blockTablesForOk ok,found]

theorem managerInvariant (numBlocks blockSize : Nat) (ops : List Op) :
    let m := runOps (new numBlocks blockSize) ops
    (m.free ++ contents m.requestBlocks).Perm (List.range' 1 (numBlocks-1)) ∧
    (∀ op, ¬ Succeeded (apply op m) → after (apply op m) = m) ∧
    (∀ requestId numTokens op t,
      op = .tryAllocateSlots requestId numTokens ∨ op = .allocateSlots requestId numTokens →
      apply op m = .ok true t →
      numTokens ⌈/⌉ m.blockSize ≤ (table t requestId).length ∧
        table m requestId <+: table t requestId) := by
  intro m
  obtain ⟨l,r⟩ := runRepresents (newRepresents numBlocks blockSize) ops
  refine ⟨?_,failureUnchanged m,?_⟩
  · rw [r.free,r.blocks]
    exact l.conserved
  · intro requestId numTokens op t kind ok
    rcases kind with same | same <;> subst same
    · exact grantCovers ok
    · rcases applyAllocate m requestId numTokens with ⟨e,failed⟩ | ⟨u,done,grant⟩
      · rw [failed] at ok; cases ok
      · rw [done] at ok; cases ok; exact grantCovers grant

end Qwen3Asr.BlockManager
