import Qwen3Asr.EagerGeneration
import Qwen3Asr.PrefixReuse

/-! Decoding over a key/value cache, column by column. The tokens of a row stand behind the padding
of its prompt at the positions they have without it, so they are those of a run from scratch. -/
namespace Qwen3Asr.EagerDecode
open Library Library.Effect Library.Word Library.CausalStack
open PagedMetadata PromptPositions BatchEngine KvCache EagerThinker EagerRows BatchPrefill PrefixReuse EagerGeneration

variable {φ η κ : Type}

section Columns
variable {thinker : CausalThinker φ η κ} {columns : List (Column φ)} {ids mask fed : List Nat} {n : Nat}

def fedInputs (thinker : CausalThinker φ η κ) (base : Nat) (fed : List Nat) : List (Input η Int) :=
  fed.mapIdx fun k token => ⟨thinker.embed ⟨token,none⟩,((base+k : Nat) : Int),true⟩

def rowInputs (thinker : CausalThinker φ η κ) (ids mask fed : List Nat) : List (Input η Int) :=
  promptInputs thinker (tokenColumns ids) mask ++ fedInputs thinker (validLen mask) fed

theorem tokenColumnsLength : (tokenColumns ids : List (Column φ)).length = ids.length := List.length_map _

theorem tokenPromptLength (same : ids.length = mask.length) :
    (promptInputs thinker (tokenColumns ids) mask).length = mask.length := by
  rw [promptLength (by rw [tokenColumnsLength,same]),tokenColumnsLength,same]

theorem rowInputsLength (same : ids.length = mask.length) :
    (rowInputs thinker ids mask fed).length = mask.length+fed.length := by
  simp [rowInputs,fedInputs,tokenPromptLength same]

theorem rowInputsNil : rowInputs thinker ids mask [] = promptInputs thinker (tokenColumns ids) mask := List.append_nil _

theorem rowInputsNext (token : Nat) : rowInputs thinker ids mask (fed ++ [token]) = rowInputs thinker ids mask fed ++
    [⟨thinker.embed ⟨token,none⟩,((validLen mask+fed.length : Nat) : Int),true⟩] := by
  simp [rowInputs,fedInputs,List.mapIdx_append]

theorem denseHolds {c : Input η Int} (inside : c ∈ denseInputs thinker columns) : c.holds = true := by
  obtain ⟨j,_,rfl⟩ := List.mem_mapIdx.mp inside
  rfl

theorem denseAppend (first rest : List (Column φ)) : denseInputs thinker (first ++ rest) =
    denseInputs thinker first ++ rest.mapIdx fun j c => ⟨thinker.embed c,((first.length+j : Nat) : Int),true⟩ := by
  unfold denseInputs
  rw [List.mapIdx_append]
  simp only [Nat.add_comm]

def rowTokens (ids mask fed : List Nat) : List Nat := ids.take (validLen mask) ++ fed

structure PaddedRow (ids mask : List Nat) : Prop where
  same : ids.length = mask.length
  padded : attentionMaskIsRightPadded mask = true

theorem validLenLe (mask : List Nat) : validLen mask ≤ mask.length := List.countP_le_length

theorem frontValid (padded : attentionMaskIsRightPadded mask = true) :
    (∀ m ∈ mask.take (validLen mask), m ≠ 0) ∧ ∀ m ∈ mask.drop (validLen mask), m = 0 := by
  obtain ⟨valid,pads,rfl,nonzero,zero⟩ := rightPaddedParts.mp padded
  rw [validLenAppend nonzero zero,List.take_left' rfl,List.drop_left' rfl]
  exact ⟨nonzero,zero⟩

/- Among all columns of a row, those that hold are the ones of a row without padding. -/
theorem rowHeld (row : PaddedRow ids mask) : (rowInputs thinker ids mask fed).filter Input.holds =
    denseInputs thinker (tokenColumns (rowTokens ids mask fed)) := by
  obtain ⟨front,rest⟩ := frontValid row.padded
  have same : (tokenColumns ids : List (Column φ)).length = mask.length := by rw [tokenColumnsLength,row.same]
  have start : (promptInputs thinker (tokenColumns ids) mask).take (validLen mask) =
      denseInputs thinker (tokenColumns (ids.take (validLen mask))) := by
    rw [promptTake same (validLenLe mask) front,tokenColumns,tokenColumns,List.map_take]
  have pads : ((promptInputs thinker (tokenColumns ids) mask).drop (validLen mask)).filter Input.holds = [] := by
    refine List.filter_eq_nil_iff.mpr fun c inside => ?_
    have bit : c.holds ∈ (holdsBits mask).drop (validLen mask) := by
      rw [← (promptParts thinker same).2.2,← List.map_drop]
      exact List.mem_map_of_mem inside
    rw [holdsBits,← List.map_drop] at bit
    obtain ⟨m,there,here⟩ := List.mem_map.mp bit
    simp [← here,rest m there]
  have fedAll : (fedInputs thinker (validLen mask) fed).filter Input.holds = fedInputs thinker (validLen mask) fed := by
    refine List.filter_eq_self.mpr fun c inside => ?_
    obtain ⟨k,_,rfl⟩ := List.mem_mapIdx.mp inside
    rfl
  have counted : (tokenColumns (ids.take (validLen mask)) : List (Column φ)).length = validLen mask := by
    rw [tokenColumnsLength,List.length_take,row.same,Nat.min_eq_left (validLenLe mask)]
  have behind : (tokenColumns fed).mapIdx (fun j c => (⟨thinker.embed c,((validLen mask+j : Nat) : Int),true⟩ : Input η Int)) =
      fedInputs thinker (validLen mask) fed := by
    refine List.ext_getElem (by simp [tokenColumns,fedInputs]) fun k _ _ => ?_
    simp [tokenColumns,fedInputs]
  rw [rowInputs,List.filter_append,fedAll,← List.take_append_drop (validLen mask) (promptInputs thinker (tokenColumns ids) mask),
    List.filter_append,pads,start,List.append_nil,List.filter_eq_self.mpr fun c inside => denseHolds inside]
  have tokens : (tokenColumns (rowTokens ids mask fed) : List (Column φ)) =
      tokenColumns (ids.take (validLen mask)) ++ tokenColumns fed := List.map_append
  rw [tokens,denseAppend,counted,behind]

end Columns

section Picks
variable {thinker : CausalThinker φ η κ} {all : List (Input η Int)} {c : Input η Int} {ids mask fed : List Nat}

def nextToken (thinker : CausalThinker φ η κ) (ids : List Nat) : Nat :=
  (picks thinker (denseInputs thinker (tokenColumns ids))).getD (ids.length-1) 0

theorem denseLength {columns : List (Column φ)} : (denseInputs thinker columns).length = columns.length := by
  simp [denseInputs]

theorem picksHeld (holds : c.holds = true) : ∃ h, (picks thinker (all ++ [c])).drop all.length = [thinker.pick h] ∧
    (picks thinker ((all ++ [c]).filter Input.holds)).getLast? = some (thinker.pick h) := by
  have bits : (stackOut thinker.layers (fun _ => []) (all ++ [c])).map Input.holds = (all ++ [c]).map Input.holds :=
    stackOutHolds
  have heldOut : (stackOut thinker.layers (fun _ => []) (all ++ [c])).filter Input.holds =
      stackOut thinker.layers (fun _ => []) ((all ++ [c]).filter Input.holds) := stackOutHeld
  rw [stackOutAppend] at bits heldOut
  have length : (stackOut thinker.layers (fun _ => []) all).length = all.length := stackOutLength
  have one : (stackOut thinker.layers (seenAfter thinker.layers (fun _ => []) all) [c]).length = 1 := stackOutLength
  obtain ⟨o,last⟩ := List.length_eq_one_iff.mp one
  rw [last] at bits heldOut
  have held : o.holds = true := by
    have same := congrArg List.getLast? bits
    simpa [holds] using same
  refine ⟨o.hidden,?_,?_⟩
  · rw [picks,stackOutAppend,last,List.map_append,List.drop_left' (by rw [List.length_map,length])]
    rfl
  · rw [picks,← heldOut,List.filter_append]
    simp [held]

theorem pickedNext (row : PaddedRow ids mask) (token : Nat) :
    (picks thinker (rowInputs thinker ids mask (fed ++ [token]))).drop (rowInputs thinker ids mask fed).length =
      [nextToken thinker (rowTokens ids mask (fed ++ [token]))] := by
  obtain ⟨h,picked,last⟩ := @picksHeld _ _ _ thinker (rowInputs thinker ids mask fed)
    ⟨thinker.embed ⟨token,none⟩,((validLen mask+fed.length : Nat) : Int),true⟩ rfl
  rw [← rowInputsNext] at picked last
  rw [rowHeld row,List.getLast?_eq_getElem?,picksLength,denseLength,tokenColumnsLength] at last
  rw [picked,nextToken,List.getD_eq_getElem?_getD,last]
  rfl

theorem pickedFirst (row : PaddedRow ids mask) (some_ : 0 < validLen mask) :
    (picks thinker (promptInputs thinker (tokenColumns ids) mask)).getD (validLen mask-1) 0 =
      nextToken thinker (rowTokens ids mask []) := by
  have same : (tokenColumns ids : List (Column φ)).length = mask.length := by rw [tokenColumnsLength,row.same]
  have within := validLenLe mask
  have start := @promptTake _ _ _ thinker _ _ _ same within (frontValid row.padded).1
  have front : (picks thinker (promptInputs thinker (tokenColumns ids) mask)).take (validLen mask) =
      picks thinker (denseInputs thinker ((tokenColumns ids).take (validLen mask))) := by
    rw [← start]
    conv_lhs => rw [← List.take_append_drop (validLen mask) (promptInputs thinker (tokenColumns ids) mask)]
    have counted : ((promptInputs thinker (tokenColumns ids) mask).take (validLen mask)).length = validLen mask := by
      rw [List.length_take,tokenPromptLength row.same,Nat.min_eq_left within]
    conv_lhs => arg 1; rw [← counted]
    exact picksAppend
  have tokens : (tokenColumns (rowTokens ids mask []) : List (Column φ)) = (tokenColumns ids).take (validLen mask) := by
    rw [rowTokens,List.append_nil,tokenColumns,tokenColumns,List.map_take]
  have counted : (rowTokens ids mask []).length = validLen mask := by
    rw [rowTokens,List.append_nil,List.length_take,row.same,Nat.min_eq_left within]
  rw [nextToken,tokens,← front,counted,List.getD_eq_getElem?_getD,List.getD_eq_getElem?_getD,List.getElem?_take,
    if_pos (by omega)]

end Picks

section Decode
variable {thinker : CausalThinker φ η κ} {dense : Bool} {batch len reserve : Nat} {all : Nat → List (Input η Int)}
  {columns : CachedColumns κ}

/- The cache after a prefill and the tokens fed since: `all` are the columns of each row. Unpadded rows
are decoded without a mask. -/
structure Fed (thinker : CausalThinker φ η κ) (dense : Bool) (batch len reserve : Nat) (all : Nat → List (Input η Int))
    (columns : CachedColumns κ) : Prop where
  holds : CacheHolds thinker columns.cache batch len
  reserved : columns.cache.maxSeqLen = some reserve
  cached : ∀ i, i < batch → RowCached thinker columns.cache i (all i)
  length : ∀ i, i < batch → (all i).length = len
  unmasked : dense = true → ∀ i, i < batch → ∀ c ∈ all i, c.holds = true
  masked : dense = false → columns.attentionMaskTotal.rows.length = batch ∧ columns.attentionMaskTotal.width = len ∧
    ∀ i, i < batch → ∃ mask, columns.attentionMaskTotal.rows[i]? = some mask ∧ holdsBits mask = (all i).map Input.holds

def fedColumn (thinker : CausalThinker φ η κ) (positions : List Int) (tokens : List Nat) (i : Nat) : Input η Int :=
  ⟨thinker.embed ⟨tokens.getD i 0,none⟩,positions.getD i 0,true⟩

theorem maskedNext (fed : Fed thinker false batch len reserve all columns) {tokens : List Nat} (counted : tokens.length = batch)
    (positions : List Int) :
    (Grid.append columns.attentionMaskTotal (tokenColumn (tokens.map fun _ => 1))).rows.length = batch ∧
    (Grid.append columns.attentionMaskTotal (tokenColumn (tokens.map fun _ => 1))).width = len+1 ∧
    ∀ i, i < batch → ∃ mask, (Grid.append columns.attentionMaskTotal (tokenColumn (tokens.map fun _ => 1))).rows[i]? = some mask ∧
      holdsBits mask = (all i ++ [fedColumn thinker positions tokens i]).map Input.holds := by
  obtain ⟨rows,width,each⟩ := fed.masked rfl
  refine ⟨?_,?_,fun i inside => ?_⟩
  · simp [Grid.append,tokenColumn,rows,counted]
  · simp [Grid.append,tokenColumn,width]
  · obtain ⟨mask,found,bits⟩ := each i inside
    refine ⟨mask ++ [1],?_,?_⟩
    · have one : (tokenColumn (tokens.map fun _ => 1)).rows[i]? = some [1] := by
        simp [tokenColumn,counted,inside]
      exact Grid.appendRow found one
    · rw [List.map_append,← bits]
      simp [holdsBits,fedColumn]

theorem fedEmbeds {tokens : List Nat} {positions : List Int} (counted : tokens.length = batch)
    (placed : positions.length = batch) {positionIds : Grid Int} (rows : positionIds.rows = positions.map ([·])) {i : Nat}
    (inside : i < batch) :
    RowInputs ((tokenColumn tokens).map fun id => thinker.embed ⟨id,none⟩) positionIds i [fedColumn thinker positions tokens i] where
  hidden := by simp [Grid.map,tokenColumn,fedColumn,counted,inside,List.getD_eq_getElem?_getD]
  positions := by simp [rows,fedColumn,placed,inside,List.getD_eq_getElem?_getD]

theorem fedNext (fed : Fed thinker dense batch len reserve all columns) {tokens : List Nat} {positions : List Int}
    {embeds : Grid η} (size : embeds.rows.length = batch) (one : embeds.width = 1) (total : Grid Nat) {logits : Grid Nat}
    {cache : KVCache κ} (ran : Ran thinker embeds len columns.cache logits cache)
    (rows : ∀ i, i < batch → RowCached thinker cache i (all i ++ [fedColumn thinker positions tokens i]) ∧
      logits.rows[i]? = some ((picks thinker (all i ++ [fedColumn thinker positions tokens i])).drop (all i).length))
    (masked : dense = false → total.rows.length = batch ∧ total.width = len+1 ∧ ∀ i, i < batch →
      ∃ mask, total.rows[i]? = some mask ∧ holdsBits mask = (all i ++ [fedColumn thinker positions tokens i]).map Input.holds) :
    Fed thinker dense batch (len+1) reserve (fun i => all i ++ [fedColumn thinker positions tokens i]) ⟨cache,total⟩ ∧
      (firstPick logits).length = batch ∧ ∀ i, i < batch → (firstPick logits)[i]? =
        some (((picks thinker (all i ++ [fedColumn thinker positions tokens i])).drop (all i).length).headD 0) := by
  refine ⟨{
    holds := size ▸ one ▸ ran.holds
    reserved := ran.reserved.trans fed.reserved
    cached := fun i inside => (rows i inside).1
    length := fun i inside => by simp [fed.length i inside]
    unmasked := fun same i inside c there => ?_
    masked },?_,fun i inside => ?_⟩
  · rcases List.mem_append.mp there with old | new
    · exact fed.unmasked same i inside c old
    · cases List.mem_singleton.mp new
      rfl
  · rw [firstPick,List.length_map,ran.rows,size]
  · rw [firstPick,List.getElem?_map,(rows i inside).2]
    rfl

theorem decodeColumnGoes (fed : Fed thinker dense batch len reserve all columns) (room : len < reserve)
    (small : len+1 < 2^32) {tokens : List Nat} {positions : List Int} (counted : tokens.length = batch)
    (placed : positions.length = batch) :
    ∃ next columns', decodeColumn thinker dense (positions.map ([·])) tokens columns = .ok (next,columns') ∧
      Fed thinker dense batch (len+1) reserve (fun i => all i ++ [fedColumn thinker positions tokens i]) columns' ∧
      next.length = batch ∧ ∀ i, i < batch → next[i]? =
        some (((picks thinker (all i ++ [fedColumn thinker positions tokens i])).drop (all i).length).headD 0) := by
  have even : ∀ row ∈ positions.map ([·]), row.length = 1 := by simp
  obtain ⟨positionIds,made⟩ := tensorGoes even
  obtain ⟨positionRows,positionWidth,_⟩ := tensorOk.mp made
  generalize embedded : (tokenColumn tokens).map (fun id => thinker.embed ⟨id,none⟩) = embeds
  have size : embeds.rows.length = batch := by simp [← embedded,Grid.map,tokenColumn,counted]
  have one : embeds.width = 1 := by simp [← embedded,Grid.map,tokenColumn]
  have same : SameShape embeds positionIds := ⟨by simp [positionRows,placed,size],by rw [positionWidth,one]⟩
  have holds : CacheHolds thinker columns.cache embeds.rows.length len := size ▸ fed.holds
  have fits : PassFits columns.cache embeds.rows.length len embeds.width :=
    ⟨fun maxLen reserved => by cases fed.reserved.symm.trans reserved; omega,flashFits.mpr (.inl (Nat.le_of_eq one))⟩
  have row {i : Nat} (inside : i < batch) : RowInputs embeds positionIds i [fedColumn thinker positions tokens i] :=
    embedded ▸ fedEmbeds counted placed positionRows inside
  unfold decodeColumn
  dsimp only
  rw [embedded]
  cases dense with
  | true =>
    obtain ⟨logits,cache,ran⟩ := decodeOneGo same holds fits one
    have result (i : Nat) (inside : i < batch) := decodeOneRow ran (fed.cached i inside) (row inside) fun c there => by
      rcases List.mem_append.mp there with old | new
      · exact fed.unmasked rfl i inside c old
      · cases List.mem_singleton.mp new
        rfl
    have next := fedNext fed size one columns.attentionMaskTotal (decodeOneRan ran same holds) result fun masked => by cases masked
    exact ⟨_,_,exceptBind.mpr ⟨positionIds,made,exceptBind.mpr ⟨_,ran,rfl⟩⟩,next⟩
  | false =>
    obtain ⟨totalRows,totalWidth,bits⟩ := maskedNext fed counted positions
    obtain ⟨logits,cache,ran⟩ := forwardEmbedsGo same holds fits (by omega) (by omega) (totalRows.trans size.symm)
      (by rw [totalWidth,one])
    have result (i : Nat) (inside : i < batch) : RowCached thinker cache i (all i ++ [fedColumn thinker positions tokens i]) ∧
        logits.rows[i]? = some ((picks thinker (all i ++ [fedColumn thinker positions tokens i])).drop (all i).length) := by
      obtain ⟨mask,found,bits⟩ := bits i inside
      exact forwardEmbedsRow ran (fed.cached i inside) (row inside) found bits ((fed.length i inside).trans fed.holds.counted.symm)
    have next := fedNext fed size one _ (forwardEmbedsRan ran same holds) result fun _ => ⟨totalRows,totalWidth,bits⟩
    exact ⟨_,_,exceptBind.mpr ⟨positionIds,made,exceptBind.mpr ⟨_,ran,rfl⟩⟩,next⟩

end Decode

end Qwen3Asr.EagerDecode
