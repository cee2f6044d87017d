import Mathlib.Algebra.Order.BigOperators.Group.List
import Qwen3Asr.GreedyRefinement

/-! Audio features reach the placeholders of their own client in every wave, although the
offsets are computed over all rows, over the rows of the wave and inside the merge. -/
namespace Qwen3Asr.AudioRouting
open Library.Effect Library.Word
open BlockManager PagedMetadata BatchEngine PrefillOutcome PromptColumns CallHistory GreedyRefinement
open Scheduler SchedulerTurn

variable {φ : Type}

section Merge

/-- What a 32-bit float keeps of a count. -/
structure FloatCounts where
  round : Nat → Nat
  exact : ∀ {n : Nat}, n ≤ 2^24 → round n = n

variable (counts : FloatCounts)

def cumsum (total : Nat) : List Nat → List Nat
  | [] => []
  | x::xs => counts.round (total+x)::cumsum (counts.round (total+x)) xs

def floatSum (xs : List Nat) : Nat := xs.foldl (fun total x => counts.round (total+x)) 0

def placeholderMask (audioTokenId : Nat) (row : List Nat) : List Nat :=
  row.map fun id => if id = audioTokenId then 1 else 0

/- The index of a feature for every column: those of the rows before, plus those in the row before. -/
def featureIndices (audioTokenId : Nat) (rows : List (List Nat)) : List (List Nat) :=
  let masks := rows.map (placeholderMask audioTokenId)
  let rowCounts := masks.map (floatSum counts)
  let offsets := List.zipWith (fun total n => counts.round (total-n)) (cumsum counts 0 rowCounts) rowCounts
  List.zipWith (fun offset mask =>
    List.zipWith (fun inRow m => counts.round (offset+counts.round (inRow-1)*m)*m) (cumsum counts 0 mask) mask) offsets masks

def mergeByIndices (audioTokenId : Nat) (audio : List φ) (rows : List (List Nat)) : List (List (Column φ)) :=
  List.zipWith (List.zipWith fun id index => ⟨id,if id = audioTokenId then audio[index]? else none⟩) rows
    (featureIndices counts audioTokenId rows)

theorem floatSumExact {xs : List Nat} (fits : xs.sum ≤ 2^24) : floatSum counts xs = xs.sum := by
  have fold (total : Nat) (fits : total+xs.sum ≤ 2^24) :
      xs.foldl (fun total x => counts.round (total+x)) total = total+xs.sum := by
    clear * - fits
    induction xs generalizing total with
    | nil => rfl
    | cons x xs ih =>
      rw [List.sum_cons] at fits
      rw [List.foldl_cons,counts.exact (by omega),ih _ (by omega),List.sum_cons,Nat.add_assoc]
  exact (fold 0 (by omega)).trans (Nat.zero_add _)

theorem maskSum (audioTokenId : Nat) (row : List Nat) :
    (placeholderMask audioTokenId row).sum = row.count audioTokenId := by
  induction row with
  | nil => rfl
  | cons id row ih =>
    unfold placeholderMask at ih ⊢
    rw [List.map_cons,List.sum_cons,ih,List.count_cons]
    by_cases same : id = audioTokenId <;> simp [same,Nat.add_comm]

theorem rowByIndices (audioTokenId : Nat) (audio : List φ) (offset before : Nat) (row : List Nat)
    (fits : offset+before+row.count audioTokenId ≤ 2^24) :
    List.zipWith (fun id index => (⟨id,if id = audioTokenId then audio[index]? else none⟩ : Column φ)) row
      (List.zipWith (fun inRow m => counts.round (offset+counts.round (inRow-1)*m)*m)
        (cumsum counts before (placeholderMask audioTokenId row)) (placeholderMask audioTokenId row)) =
      mergeRow audioTokenId audio (offset+before) row := by
  induction row generalizing before with
  | nil => rfl
  | cons id row ih =>
    unfold placeholderMask at ih ⊢
    by_cases same : id = audioTokenId
    · rw [same,List.count_cons_self] at fits
      have next : counts.round (before+1) = before+1 := counts.exact (by omega)
      have index : counts.round (offset+counts.round before) = offset+before := by
        rw [counts.exact (n := before) (by omega),counts.exact (by omega)]
      simp [same,cumsum,mergeRow,next,index,ih (before+1) (by omega),Nat.add_assoc]
    · rw [List.count_cons_of_ne same] at fits
      have next : counts.round before = before := counts.exact (by omega)
      simp [same,cumsum,mergeRow,next,ih before fits]

/-- The merge's index arithmetic hands the features out in row-major order, up to as many placeholders as an
f32 counts. -/
theorem mergeByIndicesRows {audioTokenId : Nat} (audio : List φ) {rows : List (List Nat)}
    (fits : (rows.map (List.count audioTokenId)).sum ≤ 2^24) :
    mergeByIndices counts audioTokenId audio rows = mergeRows audioTokenId audio 0 rows := by
  have rest (before : Nat) (fits : before+(rows.map (List.count audioTokenId)).sum ≤ 2^24) :
      List.zipWith (List.zipWith fun id index => (⟨id,if id = audioTokenId then audio[index]? else none⟩ : Column φ)) rows
      (List.zipWith (fun offset mask =>
          List.zipWith (fun inRow m => counts.round (offset+counts.round (inRow-1)*m)*m) (cumsum counts 0 mask) mask)
        (List.zipWith (fun total n => counts.round (total-n))
          (cumsum counts before ((rows.map (placeholderMask audioTokenId)).map (floatSum counts)))
          ((rows.map (placeholderMask audioTokenId)).map (floatSum counts)))
        (rows.map (placeholderMask audioTokenId))) = mergeRows audioTokenId audio before rows := by
    clear * - fits
    induction rows generalizing before with
    | nil => rfl
    | cons row rows ih =>
      rw [List.map_cons,List.sum_cons] at fits
      have counted : floatSum counts (placeholderMask audioTokenId row) = row.count audioTokenId := by
        rw [floatSumExact counts (by rw [maskSum]; omega),maskSum]
      have next : counts.round (before+row.count audioTokenId) = before+row.count audioTokenId := counts.exact (by omega)
      have start : counts.round before = before := counts.exact (by omega)
      have merged := rowByIndices counts audioTokenId audio before 0 row (by omega)
      simp only [List.map_cons,cumsum,List.zipWith_cons_cons,counted,next,start,Nat.add_sub_cancel,merged,mergeRows,
        ih (before+row.count audioTokenId) (by omega),Nat.add_zero]
  exact rest 0 (by omega)

example : featureIndices ⟨id,fun _ => rfl⟩ 9 [[1,9,9],[9,2,3]] = [[0,0,1],[2,0,0]] := by decide

theorem mergeRowAt (audioTokenId : Nat) (audio : List φ) (offset : Nat) (row : List Nat) :
    mergeRow audioTokenId audio offset row = row.mapIdx fun j id =>
      ⟨id,if id = audioTokenId then audio[offset+(row.take j).count audioTokenId]? else none⟩ := by
  induction row generalizing offset with
  | nil => rfl
  | cons id row ih =>
    rw [List.mapIdx_cons,mergeRow]
    by_cases same : id = audioTokenId
    · simp [same,ih,Nat.add_assoc,Nat.add_comm 1]
    · simp [same,ih]

theorem mergeKeepsTokens {audioTokenId : Nat} {audio : List φ} {offset : Nat} {rows : List (List Nat)} :
    ∀ row ∈ mergeRows audioTokenId audio offset rows, ∀ column ∈ row, column.id ≠ audioTokenId → column.audio = none := by
  induction rows generalizing offset with
  | nil => simp [mergeRows]
  | cons first rows ih =>
    intro row inside column member other
    rcases List.mem_cons.mp inside with rfl | later
    · rw [mergeRowAt] at member
      obtain ⟨j,bound,rfl⟩ := List.mem_mapIdx.mp member
      exact if_neg other
    · exact ih row later column member other

end Merge

section Embeds
variable {thinker : Thinker φ} {rows : List PromptRow} {prompts : List (List Nat)} {audio : List φ}

def prefillEmbeds (thinker : Thinker φ) (rows : List PromptRow) (audio : List φ) :
    Except String (List (List (Column φ))) := do
  let placeholderCount := countAudioPlaceholdersBatch (rows.map PromptRow.ids) thinker.audioTokenId
  if thinker.usePackedCudaPrefill then
    let packed := rows.map fun row => row.ids.take row.len
    let packedAudio ← packFeatures thinker.audioTokenId packed placeholderCount (some audio)
    inputsEmbedsWithAudioFeatures thinker [packed.flatten] packedAudio placeholderCount
  else inputsEmbedsWithAudioFeatures thinker (rows.map PromptRow.ids) (some audio) placeholderCount

theorem callEmbeds {cache : PagedKvCache} {requestIds : List Nat} {blockTables : List (List Nat)} {seqLen : Nat}
    {prefilled : Prefilled φ}
    (ok : prefillCall thinker cache requestIds blockTables seqLen rows (some audio) = .ok prefilled) :
    prefillEmbeds thinker rows audio = .ok prefilled.call.columns := by
  unfold prefillCall at ok
  unfold prefillEmbeds
  dsimp only at ok ⊢
  obtain ⟨⟨positionIds,_⟩,_,ok⟩ := exceptBind.mp ok
  dsimp only at ok
  rw [Option.isSome_some,if_pos rfl] at ok
  split at ok
  · rename_i packed
    rw [if_pos packed]
    unfold packedPrefillCall at ok
    dsimp only at ok
    obtain ⟨packedAudio,features,ok⟩ := exceptBind.mp ok
    obtain ⟨columns,merged,ok⟩ := exceptBind.mp ok
    simp only [exceptBind] at ok
    obtain ⟨_,_,_,_,_,_,same⟩ := ok
    cases same
    exact exceptBind.mpr ⟨packedAudio,features,merged⟩
  · rename_i padded
    rw [if_neg padded]
    unfold paddedPrefillCall at ok
    dsimp only at ok
    obtain ⟨columns,merged,ok⟩ := exceptBind.mp ok
    simp only [exceptBind] at ok
    obtain ⟨_,_,_,_,_,_,same⟩ := ok
    cases same
    exact merged

theorem mergeTotal {rows : List (List Nat)} {audioTokenId placeholderCount : Nat}
    (counted : (rows.map (·.count audioTokenId)).sum = placeholderCount) (all : placeholderCount = audio.length) :
    ∃ columns, mergeAudioFeatures rows audioTokenId audio placeholderCount = .ok columns := by
  have room : (rows.map (·.count audioTokenId)).sum ≤ (rows.map List.length).sum :=
    List.sum_le_sum fun row _ => List.count_le_length
  unfold mergeAudioFeatures
  dsimp only
  rw [if_neg (by omega),if_neg (not_not.mpr all)]
  split <;> exact ⟨_,rfl⟩

theorem packTotal {audioTokenId offset : Nat} {rows : List (List Nat)}
    (room : offset+(rows.map (·.count audioTokenId)).sum ≤ audio.length) :
    ∃ packed, packAudio audioTokenId audio offset rows = .ok packed := by
  induction rows generalizing offset with
  | nil => exact ⟨_,rfl⟩
  | cons row rows ih =>
    rw [List.map_cons,List.sum_cons,← Nat.add_assoc] at room
    obtain ⟨⟨parts,last⟩,tail⟩ := ih room
    have slice : narrow audio offset (row.count audioTokenId) =
        .ok ((audio.drop offset).take (row.count audioTokenId)) := if_pos (by omega)
    unfold packAudio
    dsimp only
    split
    · exact ⟨_,exceptBind.mpr ⟨_,slice,exceptBind.mpr ⟨_,tail,rfl⟩⟩⟩
    · exact ⟨_,exceptBind.mpr ⟨_,rfl,exceptBind.mpr ⟨_,tail,rfl⟩⟩⟩

theorem embedsTotal (pads : List.Forall₂ (RowPads thinker.audioTokenId) rows prompts)
    (counted : (prompts.map (·.count thinker.audioTokenId)).sum = audio.length) :
    ∃ columns, prefillEmbeds thinker rows audio = .ok columns := by
  have counts := rowsCount pads
  unfold prefillEmbeds countAudioPlaceholdersBatch
  dsimp only
  rw [counts,rowsTake pads]
  split
  · obtain ⟨⟨parts,last⟩,packs⟩ : ∃ packed, packAudio thinker.audioTokenId audio 0 prompts = .ok packed :=
      packTotal (by omega)
    obtain ⟨total,_,length⟩ := packAudioOk packs
    rw [Nat.zero_add] at total
    have features : packFeatures thinker.audioTokenId prompts (prompts.map (·.count thinker.audioTokenId)).sum
        (some audio) = .ok (if parts = [] then none else some parts) :=
      exceptBind.mpr ⟨_,packs,if_neg (not_not.mpr total)⟩
    have merged : ∃ columns, inputsEmbedsWithAudioFeatures thinker [prompts.flatten]
        (if parts = [] then none else some parts) (prompts.map (·.count thinker.audioTokenId)).sum = .ok columns := by
      split
      · exact ⟨_,rfl⟩
      · exact mergeTotal (by simpa using countFlatten prompts) length.symm
    obtain ⟨columns,merged⟩ := merged
    exact ⟨columns,exceptBind.mpr ⟨_,features,merged⟩⟩
  · exact mergeTotal (counts ▸ rfl) counted

theorem embedsKeepTokens {columns : List (List (Column φ))} (ok : prefillEmbeds thinker rows audio = .ok columns) :
    ∀ row ∈ columns, ∀ column ∈ row, column.id ≠ thinker.audioTokenId → column.audio = none := by
  have embedded {tokens : List (List Nat)} {features : Option (List φ)} {placeholderCount : Nat}
      (ok : inputsEmbedsWithAudioFeatures thinker tokens features placeholderCount = .ok columns) :
      ∀ row ∈ columns, ∀ column ∈ row, column.id ≠ thinker.audioTokenId → column.audio = none := by
    have plain : ∀ row ∈ (embedTokens tokens : List (List (Column φ))), ∀ column ∈ row, column.audio = none := by
      simp [embedTokens]
    unfold inputsEmbedsWithAudioFeatures at ok
    split at ok
    · cases ok
      exact fun row inside column member _ => plain row inside column member
    · unfold mergeAudioFeatures at ok
      dsimp only at ok
      split at ok <;> try contradiction
      split at ok <;> try contradiction
      split at ok <;> cases ok
      · exact fun row inside column member _ => plain row inside column member
      · exact mergeKeepsTokens
  unfold prefillEmbeds at ok
  dsimp only at ok
  split at ok
  · obtain ⟨_,_,merged⟩ := exceptBind.mp ok
    exact embedded merged
  · exact embedded ok

end Embeds

section Waves
variable {run : ContinuousRun φ} {prompts : List (List Nat)}

/- The columns of a client: the `k`-th placeholder takes the feature that many places after
those of the clients before, every other column keeps its token. -/
def routedPrompt (run : ContinuousRun φ) (prompts : List (List Nat)) (client : Nat) : List (Column φ) :=
  let prompt := prompts.getD client []
  let before := ((prompts.take client).map (·.count run.thinker.audioTokenId)).sum
  prompt.mapIdx fun j id => ⟨id,
    if id = run.thinker.audioTokenId then
      run.audioFeatures[before+(prompt.take j).count run.thinker.audioTokenId]?
    else none⟩

theorem clientRouted {client : Nat} (bound : client < prompts.length) :
    (clientPrompts run prompts)[client]? = some (routedPrompt run prompts client) := by
  have found := List.getElem?_eq_getElem bound
  rw [clientPrompts,mergeRowsGet run.thinker.audioTokenId run.audioFeatures 0 found,mergeRowAt,routedPrompt,
    Nat.zero_add,← List.map_take]
  simp [List.getD_eq_getElem?_getD,bound]

theorem routedPresent {client : Nat} (bound : client < prompts.length)
    (counted : (prompts.map (·.count run.thinker.audioTokenId)).sum = run.audioFeatures.length) :
    ∀ column ∈ routedPrompt run prompts client, column.id = run.thinker.audioTokenId → column.audio.isSome := by
  intro column member placeholder
  obtain ⟨j,inside,rfl⟩ := List.mem_mapIdx.mp member
  have prompt : prompts.getD client [] = prompts[client] := (List.getElem_eq_getD []).symm
  simp only [prompt] at inside placeholder ⊢
  have before : ((prompts.take client).map (·.count run.thinker.audioTokenId)).sum+
      prompts[client].count run.thinker.audioTokenId ≤ run.audioFeatures.length := by
    have upTo := List.sum_take_succ (prompts.map (·.count run.thinker.audioTokenId)) client (by simpa using bound)
    have within := List.Sublist.sum_le_sum
      (List.take_sublist (client+1) (prompts.map (·.count run.thinker.audioTokenId))) (by simp)
    rw [List.getElem_map] at upTo
    rw [List.map_take]
    omega
  have own : (prompts[client].take j).count run.thinker.audioTokenId < prompts[client].count run.thinker.audioTokenId := by
    have parts : (prompts[client].take j ++ prompts[client].drop j).count run.thinker.audioTokenId =
        (prompts[client].take j).count run.thinker.audioTokenId +
          (prompts[client].drop j).count run.thinker.audioTokenId := List.count_append
    rw [List.take_append_drop,List.drop_eq_getElem_cons inside,placeholder,List.count_cons_self] at parts
    omega
  rw [if_pos placeholder,List.getElem?_eq_getElem (by omega)]
  rfl

theorem concatTotal (prepared : Prepared run prompts)
    (counted : (prompts.map (·.count run.thinker.audioTokenId)).sum = run.audioFeatures.length) {wave : List Nat}
    (nonempty : wave ≠ []) (inside : ∀ client ∈ wave, client < run.prepared.length) :
    ∃ audio, concatPreparedAudio run.audioFeatures (audioOffsets run) (rowAudioLens run) wave = .ok audio := by
  have lens := audioLens prepared
  have each (client : Nat) (bound : client < run.prepared.length) :
      (audioOffsets run).getD client 0+(rowAudioLens run).getD client 0 ≤ run.audioFeatures.length := by
    have here : client < (rowAudioLens run).length := by simpa [rowAudioLens] using bound
    have upTo := List.sum_take_succ (rowAudioLens run) client here
    have within := List.Sublist.sum_le_sum (List.take_sublist (client+1) (rowAudioLens run)) (by simp)
    have total : (rowAudioLens run).sum = run.audioFeatures.length := by rw [lens,counted]
    have offset : (audioOffsets run).getD client 0 = ((rowAudioLens run).take client).sum := by
      simp [audioOffsets,List.getD_eq_getElem?_getD,bound]
    have len : (rowAudioLens run).getD client 0 = (rowAudioLens run)[client] := (List.getElem_eq_getD 0).symm
    omega
  have slices : wave.mapM (fun client =>
      narrow run.audioFeatures ((audioOffsets run).getD client 0) ((rowAudioLens run).getD client 0)) =
        .ok (wave.map fun client =>
          (run.audioFeatures.drop ((audioOffsets run).getD client 0)).take ((rowAudioLens run).getD client 0)) :=
    exceptMapM.mpr (List.forall₂_map_right_iff.mpr (List.forall₂_same.mpr fun client member =>
      if_pos (each client (inside client member))))
  unfold concatPreparedAudio
  rw [if_neg nonempty]
  exact ⟨_,exceptBind.mpr ⟨_,slices,rfl⟩⟩

theorem waveCounts (prepared : Prepared run prompts) {clients : List Nat} {audio : List φ}
    (ok : concatPreparedAudio run.audioFeatures (audioOffsets run) (rowAudioLens run) clients = .ok audio) :
    ((wavePrompts prompts clients).map (·.count run.thinker.audioTokenId)).sum = audio.length := by
  unfold concatPreparedAudio at ok
  split at ok <;> try contradiction
  obtain ⟨parts,slices,ok⟩ := exceptBind.mp ok
  cases ok
  rw [List.length_flatten,sliceLens (exceptMapM.mp slices),audioLens prepared,wavePrompts,List.map_map]
  exact congrArg List.sum (List.map_congr_left fun client _ =>
    (List.getD_map (l := prompts) (d := []) (n := client) (·.count run.thinker.audioTokenId)).symm)

/-- For any partition of the prepared rows into waves, in any order, and for both prefill modes:
the audio of a wave is always assembled and embedded, and the call feeds each client its own columns. -/
theorem audioRouting (prepared : Prepared run prompts)
    (counted : (prompts.map (·.count run.thinker.audioTokenId)).sum = run.audioFeatures.length)
    {waves : List (List Nat)} (partition : waves.flatten.Perm (List.range run.prepared.length))
    {wave : List Nat} (member : wave ∈ waves) (nonempty : wave ≠ []) :
    (∀ client ∈ wave, ∀ column ∈ routedPrompt run prompts client,
      column.id = run.thinker.audioTokenId → column.audio.isSome) ∧
    ∃ audio, concatPreparedAudio run.audioFeatures (audioOffsets run) (rowAudioLens run) wave = .ok audio ∧
      ∀ ids masks, padPreparedWaveForPrefill run.prepared wave run.padId = .ok (ids,masks) →
      ∀ config seqLen rows, promptRows ids masks config = .ok (seqLen,rows) →
      (∃ columns, prefillEmbeds run.thinker rows audio = .ok columns) ∧
      ∀ cache requestIds blockTables prefilled,
        prefillCall run.thinker cache requestIds blockTables seqLen rows (some audio) = .ok prefilled →
        prefillEmbeds run.thinker rows audio = .ok prefilled.call.columns ∧
        (∀ k client, wave[k]? = some client → promptColumns run.thinker.usePackedCudaPrefill prefilled.call
          (rows.map PromptRow.len) k = routedPrompt run prompts client) ∧
        ∀ row ∈ prefilled.call.columns, ∀ column ∈ row, column.id ≠ run.thinker.audioTokenId → column.audio = none := by
  have inside (client : Nat) (there : client ∈ wave) : client < run.prepared.length :=
    List.mem_range.mp (partition.mem_iff.mp (List.mem_flatten.mpr ⟨wave,member,there⟩))
  have bound (client : Nat) (there : client ∈ wave) : client < prompts.length :=
    prepared.rows.length_eq ▸ inside client there
  obtain ⟨audio,concat⟩ := concatTotal prepared counted nonempty inside
  refine ⟨fun client there => routedPresent (bound client there) counted,audio,concat,
    fun ids masks padded config seqLen rows checked => ?_⟩
  have pads := promptRowsPads checked (wavePads prepared padded)
  refine ⟨embedsTotal pads (waveCounts prepared concat),fun cache requestIds blockTables prefilled called =>
    ⟨callEmbeds called,fun k client place => ?_,embedsKeepTokens (callEmbeds called)⟩⟩
  have here := bound client (List.mem_of_getElem? place)
  have own := waveAudio prepared concat place (List.getElem?_eq_getElem here)
  rw [clientRouted here] at own
  exact prefillColumns pads called own

end Waves

def twoSpeakers : ContinuousRun Nat where
  maxNumSeqs := 2
  thinker := ⟨9,false,fun _ _ => .ok fun _ _ => 5⟩
  prepared := [⟨[7,9,0],[1,1,0]⟩,⟨[9,7,9],[1,1,1]⟩]
  audioFeatures := [10,11,12]
  maxNewTokens := 4
  eosTokenIds := [2]
  padId := 0

theorem audioRoutingTwoSpeakers : ∃ audio prefilled,
    concatPreparedAudio twoSpeakers.audioFeatures (audioOffsets twoSpeakers) (rowAudioLens twoSpeakers) [1,0] = .ok audio ∧
    prefillCall twoSpeakers.thinker ⟨8,9,72,false⟩ [0,1] [[1],[2]] 3 [⟨[9,7,9],[1,1,1],3⟩,⟨[7,9,0],[1,1,0],2⟩]
      (some audio) = .ok prefilled ∧
    promptColumns false prefilled.call [3,2] 0 = [⟨9,some 11⟩,⟨7,none⟩,⟨9,some 12⟩] ∧
    promptColumns false prefilled.call [3,2] 1 = [⟨7,none⟩,⟨9,some 10⟩] := by
  have prepared : Prepared twoSpeakers [[7,9],[9,7,9]] :=
    ⟨.cons ⟨[0],by decide,rfl,rfl⟩ (.cons ⟨[],by decide,rfl,rfl⟩ .nil),by decide⟩
  have partition : [[1,0]].flatten.Perm (List.range twoSpeakers.prepared.length) := by decide
  obtain ⟨_,audio,concat,feeds⟩ := audioRouting prepared rfl partition (List.mem_singleton.mpr rfl) (by decide)
  obtain ⟨_,columns⟩ := feeds [[9,7,9],[7,9,0]] [[1,1,1],[1,1,0]] rfl ⟨4,[2],0⟩ 3
    [⟨[9,7,9],[1,1,1],3⟩,⟨[7,9,0],[1,1,0],2⟩] rfl
  obtain rfl : [11,12,10] = audio := Except.ok.inj concat
  obtain ⟨prefilled,called⟩ : ∃ prefilled, prefillCall twoSpeakers.thinker ⟨8,9,72,false⟩ [0,1] [[1],[2]] 3
      [⟨[9,7,9],[1,1,1],3⟩,⟨[7,9,0],[1,1,0],2⟩] (some [11,12,10]) = .ok prefilled := exceptIsOk.mp rfl
  obtain ⟨_,fed,_⟩ := columns _ _ _ prefilled called
  exact ⟨_,prefilled,concat,called,fed 0 1 rfl,fed 1 0 rfl⟩

end Qwen3Asr.AudioRouting
