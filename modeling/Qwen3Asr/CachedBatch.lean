import Qwen3Asr.Library.LockStep
import Qwen3Asr.ScratchDecode

/-! Decoding a batch over one cache, whatever left the keys there. What the mask leaves of a row's keys are those of
a run from scratch on the row's columns, and every token fed adds its own. -/
namespace Qwen3Asr.CachedBatch
open Library Library.Effect Library.Word Library.CausalStack Library.Greedy Library.LockStep
open PagedMetadata PromptPositions BatchEngine CausalMask KvCache EagerThinker EagerRows BatchPrefill PrefixReuse
open EagerGeneration EagerDecode EagerAgreement ScratchDecode

variable {φ η κ : Type}

section Layers
variable {allowed : Option (List (List (List Bool)))} {positionIds : Grid Int} {layers : List (Layer η Int κ)} {first : Nat}
  {hidden out : Grid η} {cache cache' : KVCache κ}

theorem layersBehind (ok : forwardCachedLayers allowed positionIds layers first hidden cache = .ok (out,cache')) :
    cache'.maxSeqLen = cache.maxSeqLen ∧ ∀ m, first+layers.length ≤ m → get cache' m = get cache m := by
  induction layers generalizing first hidden cache with
  | nil =>
    cases ok
    exact ⟨rfl,fun _ _ => rfl⟩
  | cons layer layers ih =>
    obtain ⟨⟨keys,cache₁⟩,updates,ok⟩ := exceptBind.mp ok
    obtain ⟨_,_,ok⟩ := exceptBind.mp ok
    have updated := updateOk updates
    obtain ⟨reserved,behind⟩ := ih ok
    refine ⟨reserved.trans updated.reserved,fun m later => ?_⟩
    rw [List.length_cons] at later
    rw [behind m (by omega),updated.others m (by omega)]

end Layers

section Row
variable {thinker : CausalThinker φ η κ} {cache cache' : KVCache κ} {i : Nat} {bits : List Bool} {row : List (Column φ)}
  {columns : List (Column φ)} {mask : List Nat}

/- What the mask leaves of the keys of row `i` are those of the columns of `row`, run from scratch. -/
def RowStands (thinker : CausalThinker φ η κ) (cache : KVCache κ) (i : Nat) (bits : List Bool) (row : List (Column φ)) : Prop :=
  ∀ m, m < thinker.layers.length → (rowKeys cache m i).length = bits.length ∧
    visible bits (rowKeys cache m i) = stackKeys thinker.layers (fun _ => []) (denseInputs thinker row) m

theorem denseHeld (thinker : CausalThinker φ η κ) (row : List (Column φ)) :
    (denseInputs thinker row).filter Input.holds = denseInputs thinker row :=
  List.filter_eq_self.mpr fun _ inside => denseHolds inside

theorem denseNext (thinker : CausalThinker φ η κ) (row : List (Column φ)) (c : Column φ) : denseInputs thinker (row ++ [c]) =
    denseInputs thinker row ++ [⟨thinker.embed c,((row.length : Nat) : Int),true⟩] := by
  rw [denseAppend]
  rfl

theorem standsNext {allowed : Option (List (List (List Bool)))} {positionIds : Grid Int} {hidden out : Grid η}
    (ok : forwardCachedLayers allowed positionIds thinker.layers 0 hidden cache = .ok (out,cache'))
    (stands : RowStands thinker cache i bits row) (sees : SeesCausally κ allowed i bits [true]) {c : Column φ}
    (inputs : RowInputs hidden positionIds i [⟨thinker.embed c,((row.length : Nat) : Int),true⟩]) :
    RowStands thinker cache' i (bits ++ [true]) (row ++ [c]) ∧
      (out.map thinker.pick).rows[i]? = some [pickedLast thinker (row ++ [c])] := by
  have spec := cachedLayersRow ok sees inputs fun m bound => by
    rw [Nat.zero_add]
    exact (stands m bound).1
  have seen (m : Nat) (bound : m < thinker.layers.length) : visible bits (rowKeys cache (0+m) i) =
      seenAfter thinker.layers (fun _ => []) (denseInputs thinker row) m := by
    rw [Nat.zero_add,(stands m bound).2,seenAfter,denseHeld]
    rfl
  rw [stackOutCongr seen] at spec
  simp only [stackKeysCongr seen] at spec
  obtain ⟨hiddens,_,keys⟩ := spec
  constructor
  · intro m bound
    have added := keys m bound
    rw [Nat.zero_add] at added
    have one : ([true] : List Bool).length = (stackKeys thinker.layers
        (seenAfter thinker.layers (fun _ => []) (denseInputs thinker row)) [⟨thinker.embed c,((row.length : Nat) : Int),true⟩] m).length := by
      rw [stackKeysLength bound]
      rfl
    rw [added]
    refine ⟨by rw [List.length_append,List.length_append,(stands m bound).1,one],?_⟩
    rw [visibleAppend (stands m bound).1.symm,(stands m bound).2,visibleAll (by simp) one,denseNext,stackKeysAppend]
  · have last : picks thinker (denseInputs thinker (row ++ [c])) = picks thinker (denseInputs thinker row) ++
        (stackOut thinker.layers (seenAfter thinker.layers (fun _ => []) (denseInputs thinker row))
          [⟨thinker.embed c,((row.length : Nat) : Int),true⟩]).map fun c => thinker.pick c.hidden := by
      rw [denseNext,picks,stackOutAppend,List.map_append]
      rfl
    obtain ⟨o,single⟩ := List.length_eq_one_iff.mp (show (stackOut thinker.layers
      (seenAfter thinker.layers (fun _ => []) (denseInputs thinker row))
      [⟨thinker.embed c,((row.length : Nat) : Int),true⟩]).length = 1 from stackOutLength)
    rw [single] at hiddens last
    rw [Grid.mapRow _ hiddens,pickedLast,last]
    simp

def promptRow (columns : List (Column φ)) (mask : List Nat) : List (Column φ) := columns.take (validLen mask)

theorem promptHeld (same : columns.length = mask.length) (padded : attentionMaskIsRightPadded mask = true) :
    (promptInputs thinker columns mask).filter Input.holds = denseInputs thinker (promptRow columns mask) := by
  obtain ⟨front,rest⟩ := frontValid padded
  have start : (promptInputs thinker columns mask).take (validLen mask) = denseInputs thinker (promptRow columns mask) :=
    promptTake same (validLenLe mask) front
  have pads : ((promptInputs thinker columns mask).drop (validLen mask)).filter Input.holds = [] := by
    refine List.filter_eq_nil_iff.mpr fun c inside => ?_
    have bit : c.holds ∈ (holdsBits mask).drop (validLen mask) := by
      rw [← (promptParts thinker same).2.2,← List.map_drop]
      exact List.mem_map_of_mem inside
    rw [holdsBits,← List.map_drop] at bit
    obtain ⟨m,there,here⟩ := List.mem_map.mp bit
    simp [← here,rest m there]
  rw [← List.take_append_drop (validLen mask) (promptInputs thinker columns mask),List.filter_append,pads,start,
    List.append_nil,denseHeld]

/- The cache of a whole prompt, padding and all, stands for its valid columns. -/
theorem cachedStands (same : columns.length = mask.length) (padded : attentionMaskIsRightPadded mask = true)
    (cached : RowCached thinker cache i (promptInputs thinker columns mask)) :
    RowStands thinker cache i (holdsBits mask) (promptRow columns mask) := by
  intro m bound
  have holds := (promptParts thinker same).2.2
  rw [cached m bound]
  refine ⟨by rw [stackKeysLength bound,promptLength same,same,bitsLength],?_⟩
  rw [← holds,visibleKeys,promptHeld same padded]

theorem promptPicked (same : columns.length = mask.length) (padded : attentionMaskIsRightPadded mask = true)
    (some_ : 0 < validLen mask) : (picks thinker (promptInputs thinker columns mask)).getD (validLen mask-1) 0 =
      pickedLast thinker (promptRow columns mask) := by
  have within := validLenLe mask
  have front : (promptInputs thinker columns mask).take (validLen mask) = denseInputs thinker (promptRow columns mask) :=
    promptTake same within (frontValid padded).1
  have counted : (denseInputs thinker (promptRow columns mask)).length = validLen mask := by
    rw [denseLength,promptRow,List.length_take]
    omega
  have whole : (picks thinker (promptInputs thinker columns mask)).take (validLen mask) =
      picks thinker (denseInputs thinker (promptRow columns mask)) := by
    conv_lhs => rw [← List.take_append_drop (validLen mask) (promptInputs thinker columns mask),front]
    conv_lhs => arg 1; rw [← counted]
    exact picksAppend
  rw [pickedLast,← whole,List.getLast?_eq_getElem?,List.length_take,picksLength,promptLength same,same,
    Nat.min_eq_left within,List.getElem?_take,if_pos (by omega),List.getD_eq_getElem?_getD]

end Row

section Step
variable {thinker : CausalThinker φ η κ} {dense : Bool} {batch len : Nat} {rows : Nat → List (Column φ)}
  {columns : CachedColumns κ}

/- A batch in a cache: the columns of row `i` that its mask leaves are those of `rows i`. Rows without padding are
decoded without a mask. -/
structure Standing (thinker : CausalThinker φ η κ) (dense : Bool) (batch len : Nat) (rows : Nat → List (Column φ))
    (columns : CachedColumns κ) : Prop where
  holds : CacheHolds thinker columns.cache batch len
  shape : dense = false → columns.attentionMaskTotal.rows.length = batch ∧ columns.attentionMaskTotal.width = len
  row : ∀ i, i < batch → ∃ bits : List Bool, bits.length = len ∧ RowStands thinker columns.cache i bits (rows i) ∧
    (dense = true → ∀ b ∈ bits, b = true) ∧
    (dense = false → ∃ mask, columns.attentionMaskTotal.rows[i]? = some mask ∧ holdsBits mask = bits)

theorem unmaskedSees {i : Nat} {bits : List Bool} (all : ∀ b ∈ bits, b = true) : SeesCausally κ none i bits [true] := by
  intro t query keys length
  obtain rfl : t = 0 := by simpa using query
  rw [List.take_of_length_le (by simp)]
  refine (visibleAll (fun b inside => ?_) (by simp [allowedKeys,length])).symm
  rcases List.mem_append.mp inside with old | new
  · exact all b old
  · exact List.mem_singleton.mp new

theorem maskedSees {i : Nat} {bits : List Bool} {attentionMask : Grid Nat} {mask : List Nat} {allowed : List (List (List Bool))}
    (made : makeCausalMaskCached (some (tokenMask attentionMask)) batch bits.length 1 = .ok allowed)
    (found : attentionMask.rows[i]? = some mask) (same : holdsBits mask = bits ++ [true]) :
    SeesCausally κ (some allowed) i bits [true] := by
  intro t query keys _
  rw [allowedCached made found (by simpa using query),same]

theorem embedded {tokens : List Nat} {positionIds : Grid Int} {positions : List Int} (spread : positionIds.rows = positions.map ([·]))
    {i token : Nat} (found : tokens[i]? = some token) {position : Int} (there : positions[i]? = some position) :
    RowInputs ((tokenColumn tokens).map fun id => thinker.embed ⟨id,none⟩) positionIds i [⟨thinker.embed ⟨token,none⟩,position,true⟩] where
  hidden := by simp [Grid.map,tokenColumn,found]
  positions := by simp [spread,there]

theorem maskGrown {tokens : List Nat} {total : Grid Nat} {i : Nat} (inside : i < tokens.length) {mask : List Nat} (found : total.rows[i]? = some mask) :
    (Grid.append total (tokenColumn (tokens.map fun _ => 1))).rows[i]? = some (mask ++ [1]) ∧
      holdsBits (mask ++ [1]) = holdsBits mask ++ [true] := by
  have one : (tokenColumn (tokens.map fun _ => 1)).rows[i]? = some [1] := by simp [tokenColumn,inside]
  exact ⟨Grid.appendRow found one,by simp [holdsBits]⟩

theorem stepLeft {embeds : Grid η} {tokens : List Nat} (counted : tokens.length = batch) (size : embeds.rows.length = batch)
    (one : embeds.width = 1) {logits : Grid Nat} {cache cache' : KVCache κ} (ran : Ran thinker embeds len cache logits cache')
    (total : Grid Nat) (shape : dense = false → total.rows.length = batch ∧ total.width = len+1)
    (each : ∀ (i : Nat) token, tokens[i]? = some token → ∃ bits : List Bool, bits.length = len+1 ∧
      (RowStands thinker cache' i bits (rows i ++ [⟨token,none⟩]) ∧
        logits.rows[i]? = some [pickedLast thinker (rows i ++ [⟨token,none⟩])]) ∧
      (dense = true → ∀ b ∈ bits, b = true) ∧
      (dense = false → ∃ mask, total.rows[i]? = some mask ∧ holdsBits mask = bits)) :
    Standing thinker dense batch (len+1) (fun i => rows i ++ tokenColumns tokens[i]?.toList) ⟨cache',total⟩ ∧
      (firstPick logits).length = batch ∧ ∀ (i : Nat) token, tokens[i]? = some token →
        (firstPick logits)[i]? = some (pickedLast thinker (rows i ++ [⟨token,none⟩])) := by
  refine ⟨{
    holds := size ▸ one ▸ ran.holds
    shape
    row := fun i inside => ?_},?_,fun i token found => ?_⟩
  · obtain ⟨token,found⟩ : ∃ token, tokens[i]? = some token := ⟨_,List.getElem?_eq_getElem (counted.symm ▸ inside)⟩
    obtain ⟨bits,length,stands,full,masked⟩ := each i _ found
    refine ⟨bits,length,?_,full,masked⟩
    rw [found]
    exact stands.1
  · rw [firstPick,List.length_map,ran.rows,size]
  · obtain ⟨_,_,⟨_,picked⟩,_⟩ := each i token found
    rw [firstPick,List.getElem?_map,picked]
    rfl

theorem standingNext (standing : Standing thinker dense batch len rows columns)
    (room : ∀ maxLen, columns.cache.maxSeqLen = some maxLen → len+1 ≤ maxLen) (small : len+1 < 2^32) {tokens : List Nat}
    {positions : List Int} (counted : tokens.length = batch) (placed : positions.length = batch)
    (behind : ∀ i, i < batch → positions[i]? = some ((rows i).length : Int)) :
    ∃ next columns', decodeColumn thinker dense (positions.map ([·])) tokens columns = .ok (next,columns') ∧
      columns'.cache.maxSeqLen = columns.cache.maxSeqLen ∧
      Standing thinker dense batch (len+1) (fun i => rows i ++ tokenColumns tokens[i]?.toList) columns' ∧
      next.length = batch ∧ ∀ (i : Nat) token, tokens[i]? = some token →
        next[i]? = some (pickedLast thinker (rows i ++ [⟨token,none⟩])) := by
  have even : ∀ row ∈ positions.map ([·]), row.length = 1 := by simp
  obtain ⟨positionIds,made⟩ := tensorGoes even
  obtain ⟨spread,width,_⟩ := tensorOk.mp made
  generalize embeds_ : (tokenColumn tokens).map (fun id => thinker.embed ⟨id,none⟩) = embeds
  have size : embeds.rows.length = batch := by simp [← embeds_,Grid.map,tokenColumn,counted]
  have one : embeds.width = 1 := by simp [← embeds_,Grid.map,tokenColumn]
  have same : SameShape embeds positionIds := ⟨by simp [spread,placed,size],by rw [width,one]⟩
  have holds : CacheHolds thinker columns.cache embeds.rows.length len := size ▸ standing.holds
  have fits : PassFits columns.cache embeds.rows.length len embeds.width :=
    ⟨fun maxLen reserved => by rw [one]; exact room maxLen reserved,flashFits.mpr (.inl (Nat.le_of_eq one))⟩
  have inside {i token : Nat} (found : tokens[i]? = some token) : i < batch := counted ▸ (List.getElem?_eq_some_iff.mp found).1
  have inputs {i token : Nat} (found : tokens[i]? = some token) : RowInputs embeds positionIds i
      [⟨thinker.embed ⟨token,none⟩,((rows i).length : Int),true⟩] := embeds_ ▸ embedded spread found (behind i (inside found))
  unfold decodeColumn
  dsimp only
  rw [embeds_]
  cases dense with
  | true =>
    obtain ⟨logits,cache,ran⟩ := decodeOneGo same holds fits one
    obtain ⟨_,hidden,pass,rfl⟩ := decodeOneOk ran
    have left := decodeOneRan ran same holds
    have next := @stepLeft _ _ _ thinker true batch len rows embeds tokens counted size one _ _ cache left columns.attentionMaskTotal
      (fun masked => by cases masked) fun i token found => by
        obtain ⟨bits,length,stands,full,_⟩ := standing.row i (inside found)
        refine ⟨bits ++ [true],by simp [length],standsNext pass stands (unmaskedSees (full rfl)) (inputs found),fun _ b there => ?_,
          fun masked => by cases masked⟩
        rcases List.mem_append.mp there with old | new
        · exact full rfl b old
        · exact List.mem_singleton.mp new
    exact ⟨_,_,exceptBind.mpr ⟨positionIds,made,exceptBind.mpr ⟨_,ran,rfl⟩⟩,left.reserved,next⟩
  | false =>
    obtain ⟨total,totalWidth⟩ := standing.shape rfl
    generalize grown : Grid.append columns.attentionMaskTotal (tokenColumn (tokens.map fun _ => 1)) = mask
    have maskRows : mask.rows.length = batch := by simp [← grown,Grid.append,tokenColumn,total,counted]
    have maskWidth : mask.width = len+1 := by simp [← grown,Grid.append,tokenColumn,totalWidth]
    obtain ⟨logits,cache,ran⟩ := forwardEmbedsGo same holds fits (by omega) (by omega) (maskRows.trans size.symm)
      (by rw [maskWidth,one])
    obtain ⟨_,_,allowed,hidden,causal,pass,rfl⟩ := forwardEmbedsOk ran
    rw [one,holds.counted] at causal
    have left := forwardEmbedsRan ran same holds
    have next := @stepLeft _ _ _ thinker false batch len rows embeds tokens counted size one _ _ cache left mask
      (fun _ => ⟨maskRows,maskWidth⟩) fun i token found => by
        obtain ⟨bits,length,stands,_,masked⟩ := standing.row i (inside found)
        obtain ⟨row,there,rfl⟩ := masked rfl
        obtain ⟨here,bitsGrown⟩ := maskGrown (counted.symm ▸ inside found) there
        rw [grown] at here
        refine ⟨holdsBits row ++ [true],by simp [length],standsNext pass stands
          (maskedSees (by rw [length]; exact causal) here bitsGrown) (inputs found),fun dense => (by cases dense),
          fun _ => ⟨_,here,bitsGrown⟩⟩
    exact ⟨_,_,exceptBind.mpr ⟨positionIds,made,exceptBind.mpr ⟨_,ran,rfl⟩⟩,left.reserved,next⟩

end Step

section Loop
variable {thinker : CausalThinker φ η κ} {dense : Bool} {batch seqLen maxNewTokens : Nat} {prompts : Nat → List (Column φ)}
  {promptLens : List Int} {eosTokenIds : List Nat} {table : List (List (List Int))}

def nextFrom (thinker : CausalThinker φ η κ) (prompt : List (Column φ)) (out : List Nat) : Nat :=
  pickedLast thinker (prompt ++ tokenColumns out)

def lockRow (row : EagerRow) : Row Nat := ⟨row.nextId,row.generated,row.finished⟩

def decodeStep (thinker : CausalThinker φ η κ) (dense : Bool) (positionIds : List (List (List Int))) (step : Nat) (tokens : List Nat)
    (columns : CachedColumns κ) : Except String (List Nat × CachedColumns κ) := do
  let positionIdsNew ← okOr positionIds[step]? s!"missing eager batch decode position ids for step {step}"
  decodeColumn thinker dense positionIdsNew tokens columns

theorem lockTaken (eosTokenIds : List Nat) (row : EagerRow) :
    taken eosTokenIds.contains (eosTokenIds.headD 0) (lockRow row) =
      (lockRow (takePending eosTokenIds row).1,(takePending eosTokenIds row).2) := by
  unfold taken takePending lockRow
  dsimp only
  split
  · rfl
  · split <;> rfl

/- The loop over a batch runs its rows in lock step. -/
theorem rowsLocked (left : Nat) {step : Nat} {rows : List EagerRow} {columns : CachedColumns κ} {out : List (Row Nat)}
    (ok : run (decodeStep thinker dense table) eosTokenIds.contains (eosTokenIds.headD 0) left step (rows.map lockRow) columns = .ok out) :
    ∃ rows', generateRowsFrom thinker dense eosTokenIds table left step rows columns = .ok rows' ∧ rows'.map lockRow = out := by
  induction left generalizing step rows columns with
  | zero => exact ⟨rows,rfl,Except.ok.inj ok⟩
  | succ left ih =>
    have all : (rows.map lockRow).all Row.finished = rows.all EagerRow.finished := by
      rw [List.all_map]
      rfl
    have pairs : (rows.map lockRow).map (taken eosTokenIds.contains (eosTokenIds.headD 0)) =
        (rows.map (takePending eosTokenIds)).map fun pair => (lockRow pair.1,pair.2) := by
      rw [List.map_map,List.map_map]
      exact List.map_congr_left fun row _ => lockTaken eosTokenIds row
    unfold run at ok
    unfold generateRowsFrom
    rw [all] at ok
    split at ok
    · next done =>
      rw [if_pos done]
      exact ⟨rows,rfl,Except.ok.inj ok⟩
    · next going =>
      rw [if_neg going]
      obtain ⟨⟨next,columns'⟩,stepped,ok⟩ := exceptBind.mp ok
      obtain ⟨positionIdsNew,found,ran⟩ := exceptBind.mp stepped
      rw [pairs,List.map_map] at ran
      rw [pairs] at ok
      have tokens : (rows.map (takePending eosTokenIds)).map (Prod.snd ∘ fun pair => (lockRow pair.1,pair.2)) =
          (rows.map (takePending eosTokenIds)).map Prod.snd := rfl
      have pendings : resumed next ((rows.map (takePending eosTokenIds)).map (Prod.fst ∘ fun pair => (lockRow pair.1,pair.2))) =
          (pendingRows next ((rows.map (takePending eosTokenIds)).map Prod.fst)).map lockRow := by
        simp [resumed,pendingRows,List.map_zipWith,List.zipWith_map_left,lockRow]
      rw [tokens] at ran
      dsimp only at ok
      rw [List.map_map,pendings] at ok
      obtain ⟨rows',rest,same⟩ := ih ok
      exact ⟨rows',exceptBind.mpr ⟨_,found,exceptBind.mpr ⟨_,ran,rest⟩⟩,same⟩

structure Underway (thinker : CausalThinker φ η κ) (dense : Bool) (batch seqLen maxNewTokens : Nat)
    (prompts : Nat → List (Column φ)) (step : Nat) (fed : Nat → List Nat) (columns : CachedColumns κ) : Prop where
  steps : ∀ i, i < batch → (fed i).length = step
  room : ∀ maxLen, columns.cache.maxSeqLen = some maxLen → seqLen+maxNewTokens ≤ maxLen
  standing : Standing thinker dense batch (seqLen+step) (fun i => prompts i ++ tokenColumns (fed i)) columns

theorem decodeServes (small : seqLen+maxNewTokens < 2^32) (counted : promptLens.length = batch)
    (lens : ∀ i, i < batch → promptLens[i]? = some ((prompts i).length : Int))
    (tabled : ∀ step, step < maxNewTokens → table[step]? = some (promptLens.map fun len => [len+(step : Int)])) :
    Serves (decodeStep thinker dense table) batch maxNewTokens (fun i => nextFrom thinker (prompts i))
      (CachedBatch.Underway thinker dense batch seqLen maxNewTokens prompts) := by
  intro step fed columns tokens underway before fedAll
  have placed : (promptLens.map (· + (step : Int))).length = batch := by rw [List.length_map,counted]
  obtain ⟨next,columns',ran,reserved,standing,length,picked⟩ := standingNext underway.standing
    (fun maxLen reserved => by have := underway.room maxLen reserved; omega) (by omega) fedAll placed fun i inside => by
      rw [List.getElem?_map,lens i inside,List.length_append,tokenColumnsLength,underway.steps i inside,Nat.cast_add]
      rfl
  have joined (i : Nat) (more : List Nat) : prompts i ++ tokenColumns (fed i) ++ tokenColumns more =
      prompts i ++ (tokenColumns (fed i ++ more) : List (Column φ)) := by
    rw [List.append_assoc,tokenColumns,tokenColumns,tokenColumns,List.map_append]
  refine ⟨next,columns',?_,⟨fun i inside => ?_,reserved ▸ underway.room,?_⟩,length,fun i token found => ?_⟩
  · rw [List.map_map] at ran
    exact exceptBind.mpr ⟨_,okOrOk.mpr (tabled step before),ran⟩
  · obtain ⟨token,found⟩ : ∃ token, tokens[i]? = some token := ⟨_,List.getElem?_eq_getElem (fedAll.symm ▸ inside)⟩
    rw [found]
    simp [underway.steps i inside]
  · simp only [joined] at standing
    exact standing
  · have one : ([⟨token,none⟩] : List (Column φ)) = tokenColumns [token] := rfl
    rw [picked i token found,one,joined]
    rfl

structure PrefilledBatch (thinker : CausalThinker φ η κ) (dense : Bool) (batch seqLen maxNewTokens : Nat)
    (prompts : Nat → List (Column φ)) (attentionMask : Grid Nat) (p : EagerPrefilled κ) : Prop where
  standing : Standing thinker dense batch seqLen prompts ⟨p.cache,attentionMask⟩
  room : ∀ maxLen, p.cache.maxSeqLen = some maxLen → seqLen+maxNewTokens ≤ maxLen
  within : ∀ i, i < batch → (prompts i).length ≤ seqLen
  lens : p.promptLens.length = batch ∧ ∀ i, i < batch → p.promptLens[i]? = some ((prompts i).length : Int)
  next : p.nextIds.length = batch ∧ ∀ (i : Nat) nextId, p.nextIds[i]? = some nextId → nextId = pickedLast thinker (prompts i)

/-- Every row of a prefilled batch is decoded to its own greedy run. -/
theorem rowsGreedy {attentionMask : Grid Nat} {p : EagerPrefilled κ} (some_ : 0 < batch) (small : seqLen+maxNewTokens < 2^32)
    (prefilled : PrefilledBatch thinker dense batch seqLen maxNewTokens prompts attentionMask p) :
    ∃ table rows, positionIdsForDecodeStepsBatch p.promptLens maxNewTokens = .ok table ∧
      generateRowsFrom thinker dense eosTokenIds table maxNewTokens 0
        (p.nextIds.map fun nextId => ⟨nextId,[],eosTokenIds.contains nextId⟩) ⟨p.cache,attentionMask⟩ = .ok rows ∧
      rows.length = batch ∧ ∀ (i : Nat) row, rows[i]? = some row →
        row.generated = greedy (nextFrom thinker (prompts i)) eosTokenIds.contains maxNewTokens := by
  obtain ⟨counted,lens⟩ := prefilled.lens
  have nonempty : p.promptLens ≠ [] := List.ne_nil_of_length_pos (by omega)
  obtain ⟨table,made,tabled⟩ := @decodeStepsGo _ maxNewTokens nonempty fun len inside => by
    obtain ⟨i,found⟩ := List.mem_iff_getElem?.mp inside
    have bound : i < batch := counted ▸ (List.getElem?_eq_some_iff.mp found).1
    obtain rfl := Option.some.inj ((lens i bound).symm.trans found)
    have within := prefilled.within i bound
    omega
  have start : CachedBatch.Underway thinker dense batch seqLen maxNewTokens prompts 0 (fun _ => []) ⟨p.cache,attentionMask⟩ := {
    steps := fun _ _ => rfl
    room := prefilled.room
    standing := by
      have same : (fun i => prompts i ++ (tokenColumns [] : List (Column φ))) = prompts := funext fun i => List.append_nil _
      rw [same]
      exact prefilled.standing}
  obtain ⟨out,ran,length,answered⟩ := @runGreedy _ _ _ _ eosTokenIds.contains (eosTokenIds.headD 0) _ _ _ _
    (decodeServes small counted lens tabled) _ start p.nextIds prefilled.next.1 fun i pending found => by
      rw [prefilled.next.2 i pending found,nextFrom]
      exact congrArg _ (List.append_nil _).symm
  have starts : p.nextIds.map (started eosTokenIds.contains) =
      (p.nextIds.map fun nextId => (⟨nextId,[],eosTokenIds.contains nextId⟩ : EagerRow)).map lockRow := by
    rw [List.map_map]
    rfl
  rw [starts] at ran
  obtain ⟨rows,through,rfl⟩ := rowsLocked maxNewTokens ran
  refine ⟨table,rows,made,through,by simpa using length,fun i row found => ?_⟩
  exact answered i (lockRow row) (by rw [List.getElem?_map,found]; rfl)

end Loop

end Qwen3Asr.CachedBatch
