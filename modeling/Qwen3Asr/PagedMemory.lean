import Qwen3Asr.CallFeeds
import Qwen3Asr.Library.Scatter
import Qwen3Asr.PagedLayers
import Qwen3Asr.RowOracle

/-! What the paged cache holds while sound calls are made: every slot the key that its last token has
in a causal pass over the tokens of its request alone. -/
namespace Qwen3Asr.PagedMemory
open Library.Holding Library.Effect Library.Word Library.Packing Library.CausalStack Library.Scatter
open PagedMetadata BatchEngine PrefillOutcome PromptColumns CallHistory RowOracle VarlenParams CacheWriters CallSlots CallFeeds PagedLayers

variable {φ η μ κ ρ ω : Type}

def Covered (blockSize : Nat) (lens : List Nat) (tables : List (List Nat)) : Prop :=
  ∀ p ∈ lens.zip tables, ∀ position < p.1, position/blockSize < p.2.length

/- What the kernels do, by the entries of a cache that they write and read. -/
structure Lawful (kernels : Kernels μ κ ρ ω) (blockSize : Nat) (reads : μ → Nat → κ) : Prop where
  cached : ∀ keys cache slots cache', kernels.reshapeAndCache keys cache slots = .ok cache' → slots.length = keys.length →
    (slots.filter (· ≠ padSlotId)).Nodup →
    ∀ slot : Nat, reads cache' slot = ((slots.zip keys).lookup (slot : Int)).getD (reads cache slot)
  gathered : ∀ cache tables lens keys, kernels.gatherKvCache cache tables (starts lens) = .ok keys → tables.length = lens.length →
    Covered blockSize lens tables →
    keys = ((lens.zip tables).map fun p => (List.range p.1).map fun position => reads cache (entrySlot blockSize p.2 position)).flatten
  paged : ∀ q cache tables lens longest out, kernels.pagedAttention q cache tables lens longest = .ok out →
    tables.length = q.length → lens.length = q.length → (∀ len ∈ lens, len ≤ longest) → Covered blockSize lens tables →
    out = List.zipWith (fun query (p : Nat × List Nat) =>
      kernels.softmax query ((List.range p.1).map fun position => reads cache (entrySlot blockSize p.2 position))) q (lens.zip tables)
  /-- A sequence of as many queries as keys attends causally, or to all its keys. -/
  varlen : ∀ q k lens maxQ maxK causal out, kernels.flashAttnVarlen q k (starts lens) (starts lens) maxQ maxK causal = .ok out →
    q.length = lens.sum → k.length = lens.sum → (∀ len ∈ lens, len ≤ maxQ ∧ len ≤ maxK) →
    out.length = q.length ∧ ∀ (i len t : Nat) (query : ρ), lens[i]? = some len → t < len → q[start lens i+t]? = some query →
      out[start lens i+t]? =
        some (kernels.softmax query ((k.drop (start lens i)).take (if causal then t+1 else len)))

section Reference
variable (blockSize : Nat) (softmax : ρ → List κ → ω) (zero : ω)

def packedPlaces (lens : List Nat) : List (Nat × Nat × Nat) :=
  (((starts lens).zip lens).map fun p => (List.range p.2).map fun t => (p.1,p.2,t)).flatten

def reference : Kernels (Nat → κ) κ ρ ω where
  reshapeAndCache keys cache slots := .ok fun slot => ((slots.zip keys).lookup (slot : Int)).getD (cache slot)
  gatherKvCache cache tables cu := do
    let lens ← sequenceLengthsFromCu cu
    .ok ((lens.zip tables).map fun p => (List.range p.1).map fun position => cache (entrySlot blockSize p.2 position)).flatten
  pagedAttention q cache tables lens _ := .ok (List.zipWith (fun query (p : Nat × List Nat) =>
    softmax query ((List.range p.1).map fun position => cache (entrySlot blockSize p.2 position))) q (lens.zip tables))
  flashAttn q k _ := .ok (q.map fun query => softmax query k)
  flashAttnVarlen q k cuQ _ _ _ causal := do
    let lens ← sequenceLengthsFromCu cuQ
    .ok (List.zipWith (fun query (p : Nat × Nat × Nat) =>
      softmax query ((k.drop p.1).take (if causal then p.2.2+1 else p.2.1))) q (packedPlaces lens))
  softmax
  zero

theorem packedPartLengths (lens : List Nat) :
    (((starts lens).zip lens).map fun p => (List.range p.2).map fun t => (p.1,p.2,t)).map List.length = lens := by
  have seconds : ((starts lens).zip lens).map Prod.snd = lens := List.map_snd_zip (by simp [starts])
  rw [List.map_map]
  calc _ = ((starts lens).zip lens).map Prod.snd := List.map_congr_left fun p _ => by simp
    _ = lens := seconds

theorem packedPlacesLength (lens : List Nat) : (packedPlaces lens).length = lens.sum := by
  rw [packedPlaces,List.length_flatten,packedPartLengths]

theorem packedPlace {lens : List Nat} {i len t : Nat} (found : lens[i]? = some len) (less : t < len) :
    (packedPlaces lens)[start lens i+t]? = some (start lens i,len,t) := by
  have inside := (List.getElem?_eq_some_iff.mp found).1
  have both : ((starts lens).zip lens)[i]? = some (start lens i,len) :=
    List.getElem?_zip_eq_some.mpr ⟨startsAt (Nat.le_of_lt inside),found⟩
  refine flattenPlace.mpr ⟨i,_,t,by rw [List.getElem?_map,both]; rfl,by simp [less],?_⟩
  rw [offset,packedPartLengths]

theorem readBack {lens lens' : List Nat} (read : sequenceLengthsFromCu (starts lens) = .ok lens') : lens' = lens := by
  have some_ : lens ≠ [] := by
    rintro rfl
    cases read
  rw [lengthsOfStarts some_] at read
  exact (Except.ok.inj read).symm

theorem referenceLawful : Lawful (reference blockSize softmax zero) blockSize fun cache slot => cache slot where
  cached _ _ _ _ ok _ _ _ := by
    cases ok
    rfl
  gathered _ _ _ _ ok _ _ := by
    obtain ⟨lens,read,ok⟩ := exceptBind.mp ok
    cases readBack read
    cases ok
    rfl
  paged _ _ _ _ _ _ ok _ _ _ _ := by
    cases ok
    rfl
  varlen q k lens _ _ causal _ ok total _ _ := by
    obtain ⟨lens',read,ok⟩ := exceptBind.mp ok
    cases readBack read
    cases ok
    refine ⟨by rw [List.length_zipWith,packedPlacesLength,total,Nat.min_self],fun i len t query found less there => ?_⟩
    rw [List.getElem?_zipWith,there,packedPlace found less]
    rfl

end Reference

section Layer
variable (thinker : PagedThinker φ η μ κ ρ ω) (blockSize : Nat) (reads : μ → Nat → κ)

def tableOf (call : ForwardCall φ) (requestId : Nat) : List Nat :=
  call.metadata.blockTables.getD (call.requestIds.idxOf requestId) []

/- A layer writes the keys of the columns, and every column attends to the entries of its request up to its own. -/
structure LayerRuns (call : ForwardCall φ) (positions : List Int) (layer : TextLayer η κ ρ ω) (layerIdx : Nat)
    (hidden out : List η) (caches caches' : List μ) (cache cache' : μ) : Prop where
  found : caches[layerIdx]? = some cache
  written : thinker.kernels.reshapeAndCache (List.zipWith layer.project hidden positions) cache call.metadata.slotMapping = .ok cache'
  after : caches' = caches.set layerIdx cache'
  counted : out.length = hidden.length
  attends : ∀ (n : Nat) (w : Writer) (h : η) (p : Int), (writers call)[n]? = some w → hidden[n]? = some h → positions[n]? = some p →
    out[n]? = some (layer.finish h (thinker.kernels.softmax (layer.query h p)
      ((List.range (w.position+1)).map fun position => reads cache' (entrySlot blockSize (tableOf call w.requestId) position))))

variable {thinker blockSize reads}
variable {call : ForwardCall φ} {older : List (ForwardCall φ)} {positions : List Int} {layer : TextLayer η κ ρ ω} {layerIdx : Nat}
  {hidden out : List η} {caches caches' : List μ}

theorem writeKeysOk {metadata : PagedInputMetadata} {keys : List κ} {cache' : μ}
    (ok : writeKeys thinker metadata layerIdx keys caches = .ok cache' caches') :
    ∃ cache, caches[layerIdx]? = some cache ∧ thinker.kernels.reshapeAndCache keys cache metadata.slotMapping = .ok cache' ∧
      caches' = caches.set layerIdx cache' := by
  unfold writeKeys at ok
  obtain ⟨_,_,got,ok⟩ := bindOk.mp ok
  cases got
  obtain ⟨cache,_,there,ok⟩ := bindOk.mp ok
  obtain ⟨found,rfl⟩ := attemptOk.mp there
  obtain ⟨_,_,write,ok⟩ := bindOk.mp ok
  obtain ⟨written,rfl⟩ := attemptOk.mp write
  obtain ⟨_,_,stored,ok⟩ := bindOk.mp ok
  cases stored
  cases ok
  exact ⟨cache,okOrOk.mp found,written,rfl⟩

theorem packedWriter {lens : List Nat} (queries : call.metadata.queryLens = some lens)
    (counted : lens.length = call.requestIds.length) {n : Nat} {w : Writer} (found : (writers call)[n]? = some w) :
    ∃ (i len t : Nat), lens[i]? = some len ∧ t < len ∧ call.requestIds[i]? = some w.requestId ∧ w.position = t ∧
      n = start lens i+t := by
  rw [promptWriters queries] at found
  obtain ⟨i,part,t,here,there,rfl⟩ := flattenPlace.mp found
  rw [List.getElem?_map,Option.map_eq_some_iff] at here
  obtain ⟨⟨requestId,len⟩,both,rfl⟩ := here
  obtain ⟨listed,inside⟩ := List.getElem?_zip_eq_some.mp both
  dsimp only at there
  rw [List.getElem?_map,Option.map_eq_some_iff] at there
  obtain ⟨_,less,rfl⟩ := there
  obtain ⟨bound,same⟩ := List.getElem?_eq_some_iff.mp less
  rw [List.getElem_range] at same
  subst same
  have lengths : ((call.requestIds.zip lens).map fun p => (List.range p.2).map (Writer.mk p.1)).map List.length = lens := by
    rw [List.map_map]
    calc _ = (call.requestIds.zip lens).map Prod.snd := List.map_congr_left fun p _ => by simp
      _ = lens := List.map_snd_zip (by omega)
  exact ⟨i,len,t,inside,by simpa using bound,listed,rfl,by rw [offset,lengths]⟩

theorem queryTotalOk {total sum : Nat} {lens : List Nat} (ok : queryTotal total lens = .ok sum) : sum = total+lens.sum := by
  induction lens generalizing total with
  | nil => cases ok; rfl
  | cons len rest ih =>
    unfold queryTotal at ok
    split at ok <;> try contradiction
    obtain ⟨_,added,ok⟩ := exceptBind.mp ok
    obtain ⟨_,rfl⟩ := checkedAddSome.mp (okOrOk.mp added)
    rw [ih ok,List.sum_cons,Nat.add_assoc]

theorem dispatchVarlen {q : List ρ} {k : List κ} {lens : List Nat} {maxQ maxK : Nat} {causal : Bool} {attn : List ω}
    (total : q.length = lens.sum)
    (ok : flashAttnDispatch thinker.kernels q k (some ⟨maxQ,some (starts lens),maxK,some (starts lens),causal⟩) = .ok attn) :
    thinker.kernels.flashAttnVarlen q k (starts lens) (starts lens) maxQ maxK causal = .ok attn := by
  unfold flashAttnDispatch at ok
  dsimp only at ok
  obtain ⟨queryLens,read,ok⟩ := exceptBind.mp ok
  have some_ : lens ≠ [] := by
    rintro rfl
    cases read
  rw [lengthsOfStarts some_] at read
  cases read
  obtain ⟨totalQ,counted,ok⟩ := exceptBind.mp ok
  have sum := queryTotalOk counted
  rwa [if_pos (by omega)] at ok

theorem gatheredParts (blockSize : Nat) (reads : μ → Nat → κ) (cache : μ) {lens : List Nat} (tables : call.metadata.blockTables.length = lens.length) {i len : Nat}
    (found : lens[i]? = some len) :
    (((((lens.zip call.metadata.blockTables).map fun p => (List.range p.1).map fun position =>
        reads cache (entrySlot blockSize p.2 position)).flatten).drop (start lens i)).take len) =
      (List.range len).map fun position => reads cache (entrySlot blockSize (call.metadata.blockTables.getD i []) position) := by
  have inside := (List.getElem?_eq_some_iff.mp found).1
  have row : call.metadata.blockTables[i]? = some (call.metadata.blockTables.getD i []) := by
    rw [List.getD_eq_getElem?_getD,List.getElem?_eq_getElem (by omega)]
    rfl
  have lengths : ((lens.zip call.metadata.blockTables).map fun p => (List.range p.1).map fun position =>
      reads cache (entrySlot blockSize p.2 position)).map List.length = lens := by
    rw [List.map_map]
    calc _ = (lens.zip call.metadata.blockTables).map Prod.fst := List.map_congr_left fun p _ => by simp
      _ = lens := List.map_fst_zip (by omega)
  have both : (lens.zip call.metadata.blockTables)[i]? = some (len,call.metadata.blockTables.getD i []) :=
    List.getElem?_zip_eq_some.mpr ⟨found,row⟩
  have here : ((lens.zip call.metadata.blockTables).map fun p => (List.range p.1).map fun position =>
      reads cache (entrySlot blockSize p.2 position))[i]? =
      some ((List.range len).map fun position => reads cache (entrySlot blockSize (call.metadata.blockTables.getD i []) position)) := by
    rw [List.getElem?_map,both]
    rfl
  have part := flattenSlice here
  rwa [lengths,List.length_map,List.length_range] at part

theorem promptTable {lens : List Nat} (queries : call.metadata.queryLens = some lens) (sound : CallSound blockSize older call)
    {i len requestId : Nat} (found : lens[i]? = some len) (listed : call.requestIds[i]? = some requestId) :
    tableOf call requestId = call.metadata.blockTables.getD i [] ∧
      ∀ p < len, p/blockSize < (call.metadata.blockTables.getD i []).length := by
  have index := idxOfGet sound.once listed
  have fed : tokensFed requestId (call::older) = len := by
    rw [tokensFed,if_pos (List.mem_of_getElem? listed),queries]
    dsimp only
    rw [index,List.getD_eq_getElem?_getD,found]
    rfl
  exact ⟨by rw [tableOf,index],fed ▸ (sound.rows i requestId listed).covered⟩

theorem packedRuns (lawful : Lawful thinker.kernels blockSize reads) (flash : thinker.flash = true) {lens : List Nat}
    (queries : call.metadata.queryLens = some lens) (fed : PromptFed call lens) (sound : CallSound blockSize older call)
    (same : positions.length = hidden.length)
    (ok : forwardPackedPrefillLayer thinker call.metadata positions layer layerIdx hidden caches = .ok out caches') :
    ∃ cache cache', LayerRuns thinker blockSize reads call positions layer layerIdx hidden out caches caches' cache cache' := by
  unfold forwardPackedPrefillLayer at ok
  obtain ⟨_,_,asked,ok⟩ := bindOk.mp ok
  obtain ⟨known,rfl⟩ := attemptOk.mp asked
  rw [queries] at known
  cases known
  dsimp only at ok
  split at ok <;> try contradiction
  rename_i total
  have total : lens.sum = hidden.length := not_not.mp total
  obtain ⟨cache',caches₁,wrote,ok⟩ := bindOk.mp ok
  obtain ⟨cache,found,written,rfl⟩ := writeKeysOk wrote
  obtain ⟨_,_,asked,ok⟩ := bindOk.mp ok
  obtain ⟨known,rfl⟩ := attemptOk.mp asked
  rw [fed.totals] at known
  cases known
  obtain ⟨gathered,_,gather,ok⟩ := bindOk.mp ok
  obtain ⟨gathers,rfl⟩ := attemptOk.mp gather
  obtain ⟨attn,_,attend,ok⟩ := bindOk.mp ok
  obtain ⟨attends,rfl⟩ := attemptOk.mp attend
  cases ok
  have ids : ∀ (i : Nat) len, lens[i]? = some len → ∃ requestId, call.requestIds[i]? = some requestId := fun i len inside =>
    ⟨_,List.getElem?_eq_getElem (fed.counted ▸ (List.getElem?_eq_some_iff.mp inside).1)⟩
  have covered : Covered blockSize lens call.metadata.blockTables := by
    intro p inside position less
    obtain ⟨i,both⟩ := List.mem_iff_getElem?.mp inside
    obtain ⟨inside,row⟩ := List.getElem?_zip_eq_some.mp both
    obtain ⟨requestId,listed⟩ := ids i _ inside
    have own := (promptTable queries sound inside listed).2 position less
    rwa [List.getD_eq_getElem?_getD,row] at own
  have keys := lawful.gathered _ _ _ _ gathers fed.tables covered
  have keysLength : gathered.length = lens.sum := by
    rw [keys,List.length_flatten,List.map_map]
    calc _ = ((lens.zip call.metadata.blockTables).map Prod.fst).sum := congrArg _ (List.map_congr_left fun p _ => by simp)
      _ = lens.sum := by rw [List.map_fst_zip (by rw [fed.tables])]
  have queriesLength : (List.zipWith layer.query hidden positions).length = lens.sum := by simp [same,total]
  rw [runAttention,if_pos flash,fed.params] at attends
  obtain ⟨attnLength,each⟩ := lawful.varlen _ _ _ _ _ _ _ (dispatchVarlen queriesLength attends) queriesLength keysLength
    fun len inside => ⟨List.le_max?_getD_of_mem inside,List.le_max?_getD_of_mem inside⟩
  refine ⟨cache,cache',found,written,rfl,?_,fun n w h p writer hiddenAt position => ?_⟩
  · rw [List.length_zipWith,attnLength,queriesLength,total,Nat.min_self]
  · obtain ⟨i,len,t,inside,less,listed,rfl,rfl⟩ := packedWriter queries fed.counted writer
    have query : (List.zipWith layer.query hidden positions)[start lens i+w.position]? = some (layer.query h p) := by
      simp [List.getElem?_zipWith,hiddenAt,position]
    have here := each i len w.position _ inside less query
    have own := gatheredParts blockSize reads cache' fed.tables inside
    have seen : ((gathered.drop (start lens i)).take (if lens.any (1 < ·) then w.position+1 else len)) =
        (List.range (w.position+1)).map fun position => reads cache' (entrySlot blockSize (tableOf call w.requestId) position) := by
      rw [(promptTable queries sound inside listed).1]
      have bound : (if lens.any (1 < ·) then w.position+1 else len) = w.position+1 := by
        split
        · rfl
        · rename_i short
          have one : ¬ 1 < len := fun long => short (List.any_eq_true.mpr ⟨len,List.mem_of_getElem? inside,decide_eq_true long⟩)
          omega
      have cut := congrArg (List.take (w.position+1)) own
      rw [← keys,List.take_take,Nat.min_eq_left less,← List.map_take,List.take_range,Nat.min_eq_left less] at cut
      rw [bound]
      exact cut
    rw [seen] at here
    simp [List.getElem?_zipWith,hiddenAt,here]

theorem decodeContext (queries : call.metadata.queryLens = none) (sound : CallSound blockSize older call) {n requestId contextLen : Nat}
    (listed : call.requestIds[n]? = some requestId) (context : call.metadata.contextLens[n]? = some contextLen) :
    contextLen = tokensFed requestId older+1 ∧ tableOf call requestId = call.metadata.blockTables.getD n [] ∧
      ∀ p < contextLen, p/blockSize < (call.metadata.blockTables.getD n []).length := by
  have reads := sound.rows n requestId listed
  have fed : tokensFed requestId (call::older) = tokensFed requestId older+1 := by
    rw [tokensFed,if_pos (List.mem_of_getElem? listed),queries]
  have same : contextLen = tokensFed requestId (call::older) := Option.some.inj (context.symm.trans reads.context)
  exact ⟨same.trans fed,by rw [tableOf,idxOfGet sound.once listed],same ▸ reads.covered⟩

theorem decodeWriterAt (queries : call.metadata.queryLens = none) {n : Nat} {w : Writer} (found : (writers call)[n]? = some w) :
    ∃ contextLen, call.requestIds[n]? = some w.requestId ∧ call.metadata.contextLens[n]? = some contextLen ∧
      w.position = contextLen-1 := by
  rw [writers,queries] at found
  dsimp only at found
  rw [List.getElem?_map,Option.map_eq_some_iff] at found
  obtain ⟨⟨requestId,contextLen⟩,both,rfl⟩ := found
  obtain ⟨listed,context⟩ := List.getElem?_zip_eq_some.mp both
  exact ⟨contextLen,listed,context,rfl⟩

theorem writerListed {w : Writer} (inside : w ∈ writers call) : w.requestId ∈ call.requestIds := by
  unfold writers at inside
  split at inside
  · obtain ⟨p,there,member⟩ := List.mem_flatMap.mp inside
    obtain ⟨_,_,rfl⟩ := List.mem_map.mp member
    exact (List.of_mem_zip there).1
  · obtain ⟨p,there,rfl⟩ := List.mem_map.mp inside
    exact (List.of_mem_zip there).1

theorem decodeRuns (lawful : Lawful thinker.kernels blockSize reads) (queries : call.metadata.queryLens = none)
    (fed : DecodeFed older call) (sound : CallSound blockSize older call) (same : positions.length = hidden.length)
    (rows : hidden.length = call.requestIds.length) {batch : Nat}
    (ok : forwardPagedLayer thinker call.metadata batch 1 positions layer layerIdx hidden caches = .ok out caches') :
    ∃ cache cache', LayerRuns thinker blockSize reads call positions layer layerIdx hidden out caches caches' cache cache' := by
  unfold forwardPagedLayer at ok
  dsimp only at ok
  obtain ⟨_,_,counted,ok⟩ := bindOk.mp ok
  obtain ⟨_,rfl⟩ := attemptOk.mp counted
  obtain ⟨cache',caches₁,wrote,ok⟩ := bindOk.mp ok
  obtain ⟨cache,found,written,rfl⟩ := writeKeysOk wrote
  obtain ⟨attn,_,attend,ok⟩ := bindOk.mp ok
  obtain ⟨attends,rfl⟩ := attemptOk.mp attend
  cases ok
  have queriesLength : (List.zipWith layer.query hidden positions).length = call.requestIds.length := by simp [same,rows]
  have covered : Covered blockSize call.metadata.contextLens call.metadata.blockTables := by
    intro p inside position less
    obtain ⟨n,both⟩ := List.mem_iff_getElem?.mp inside
    obtain ⟨context,row⟩ := List.getElem?_zip_eq_some.mp both
    have bound : n < call.requestIds.length := fed.contexts ▸ (List.getElem?_eq_some_iff.mp context).1
    have own := (decodeContext queries sound (List.getElem?_eq_getElem bound) context).2.2 position less
    rwa [List.getD_eq_getElem?_getD,row] at own
  have made := lawful.paged _ _ _ _ _ _ attends (fed.tables.trans queriesLength.symm) (fed.contexts.trans queriesLength.symm)
    fed.longest covered
  have attnLength : attn.length = call.requestIds.length := by
    rw [made,List.length_zipWith,List.length_zip,queriesLength,fed.contexts,fed.tables,Nat.min_self,Nat.min_self]
  refine ⟨cache,cache',found,written,rfl,?_,fun n w h p writer hiddenAt position => ?_⟩
  · rw [List.length_zipWith,attnLength,rows,Nat.min_self]
  · obtain ⟨contextLen,listed,context,place⟩ := decodeWriterAt queries writer
    obtain ⟨counted,table,_⟩ := decodeContext queries sound listed context
    have inside : n < call.metadata.blockTables.length := by
      rw [fed.tables]
      exact (List.getElem?_eq_some_iff.mp listed).1
    have row : call.metadata.blockTables[n]? = some (call.metadata.blockTables.getD n []) := by
      rw [List.getD_eq_getElem?_getD,List.getElem?_eq_getElem inside]
      rfl
    have both : (call.metadata.contextLens.zip call.metadata.blockTables)[n]? =
        some (contextLen,call.metadata.blockTables.getD n []) := List.getElem?_zip_eq_some.mpr ⟨context,row⟩
    have all : contextLen = w.position+1 := by omega
    rw [table,← all,made]
    simp [List.getElem?_zipWith,hiddenAt,position,both]

end Layer

section Stack
variable (thinker : PagedThinker φ η μ κ ρ ω) (blockSize : Nat) (reads : μ → Nat → κ)

abbrev Streams (η : Type) := Nat → List (Input η Int)

/- A slot holds the key of the token it was last written for. -/
def SlotsHold (layer : Layer η Int κ) (history : List (ForwardCall φ)) (streams : Streams η) (cache : μ) : Prop :=
  ∀ slot w, lastWriter history slot = some w →
    ((streams w.requestId).map (key layer))[w.position]? = some (reads cache slot)

def CachesHold (history : List (ForwardCall φ)) : List (Layer η Int κ) → Nat → Streams η → List μ → Prop
  | [], _, _, _ => True
  | layer::layers, first, streams, caches =>
    (∃ cache, caches[first]? = some cache ∧ SlotsHold reads layer history streams cache) ∧
      CachesHold history layers (first+1) (fun requestId => pass layer [] (streams requestId)) caches

structure ColumnsEnter (call : ForwardCall φ) (positions : List Int) (streams : Streams η) (hidden : List η) : Prop where
  counted : hidden.length = (writers call).length
  placed : positions.length = (writers call).length
  each : ∀ (n : Nat) (w : Writer), (writers call)[n]? = some w → ∃ h p, hidden[n]? = some h ∧ positions[n]? = some p ∧
    (streams w.requestId)[w.position]? = some ⟨h,p,true⟩

structure StreamsGrow (older : List (ForwardCall φ)) (call : ForwardCall φ) (old new : Streams η) : Prop where
  grows : ∀ requestId, old requestId <+: new requestId
  all : ∀ requestId, ∀ c ∈ new requestId, c.holds = true
  counted : ∀ requestId ∈ call.requestIds, (new requestId).length = tokensFed requestId (call::older)

variable {thinker blockSize reads} {call : ForwardCall φ} {older : List (ForwardCall φ)} {positions : List Int}
  {old new : Streams η}

theorem streamsNext (layer : Layer η Int κ) (streams : StreamsGrow older call old new) :
    StreamsGrow older call (fun k => pass layer [] (old k)) (fun k => pass layer [] (new k)) where
  grows k := passPrefix (streams.grows k)
  all k := passAll (streams.all k)
  counted k inside := passLength.trans (streams.counted k inside)

theorem cachesElsewhere {history : List (ForwardCall φ)} {layers : List (Layer η Int κ)} {first i : Nat} {streams : Streams η}
    {caches : List μ} {cache : μ} (before : i < first) (hold : CachesHold reads history layers first streams caches) :
    CachesHold reads history layers first streams (caches.set i cache) := by
  induction layers generalizing first streams with
  | nil => trivial
  | cons layer layers ih =>
    obtain ⟨⟨own,found,slots⟩,rest⟩ := hold
    exact ⟨⟨own,by rw [List.getElem?_set_ne (by omega)]; exact found,slots⟩,ih (by omega) rest⟩

section OneLayer
variable {layer : TextLayer η κ ρ ω} {layerIdx : Nat} {hidden out : List η} {caches caches' : List μ} {cache cache' : μ}

theorem layerSlots (lawful : Lawful thinker.kernels blockSize reads) (sound : CallSound blockSize older call)
    (unpadded : padSlotId ∉ call.metadata.slotMapping) (streams : StreamsGrow older call old new)
    (enter : ColumnsEnter call positions new hidden)
    (runs : LayerRuns thinker blockSize reads call positions layer layerIdx hidden out caches caches' cache cache')
    (slots : SlotsHold reads (causalLayer thinker layer) older old cache) :
    SlotsHold reads (causalLayer thinker layer) (call::older) new cache' := by
  have live : liveSlots call = call.metadata.slotMapping :=
    List.filter_eq_self.mpr fun slot inside => decide_eq_true fun pad => unpadded (pad ▸ inside)
  have counted := enter.counted
  have placed := enter.placed
  have keys : (List.zipWith layer.project hidden positions).length = (writers call).length := by
    rw [List.length_zipWith,counted,placed,Nat.min_self]
  have size : call.metadata.slotMapping.length = (List.zipWith layer.project hidden positions).length := by
    rw [keys,← sound.counted,live]
  -- The key written for a token is the one it has in its stream.
  have written : List.Forall₂ (fun w k => ((new w.requestId).map (key (causalLayer thinker layer)))[w.position]? = some k)
      (writers call) (List.zipWith layer.project hidden positions) := by
    refine List.forall₂_iff_get.mpr ⟨keys.symm,fun n bound bound' => ?_⟩
    obtain ⟨h,p,atHidden,atPosition,there⟩ := enter.each n _ (List.getElem?_eq_getElem bound)
    have made : (List.zipWith layer.project hidden positions)[n]? = some (layer.project h p) := by
      simp [List.getElem?_zipWith,atHidden,atPosition]
    rw [List.getElem?_eq_getElem bound'] at made
    simp only [List.get_eq_getElem,List.getElem?_map]
    rw [there,Option.some.inj made]
    rfl
  have cached := lawful.cached _ _ _ _ runs.written size sound.slots
  intro slot w last
  have both := lookupPaired call.metadata.slotMapping written (slot : Int)
  rw [lastWriterCons,writes,live] at last
  rw [cached slot]
  cases new_ : (call.metadata.slotMapping.zip (writers call)).lookup (slot : Int) with
  | none =>
    rw [new_] at both last
    cases looked : (call.metadata.slotMapping.zip (List.zipWith layer.project hidden positions)).lookup (slot : Int) with
    | some k =>
      rw [looked] at both
      cases both
    | none =>
      have before := slots slot w last
      rw [List.getElem?_map,Option.map_eq_some_iff] at before ⊢
      obtain ⟨c,there,same⟩ := before
      obtain ⟨rest,grown⟩ := streams.grows w.requestId
      refine ⟨c,?_,same⟩
      rw [← grown,List.getElem?_append_left (List.getElem?_eq_some_iff.mp there).1]
      exact there
  | some w' =>
    rw [new_] at both last
    cases last
    cases looked : (call.metadata.slotMapping.zip (List.zipWith layer.project hidden positions)).lookup (slot : Int) with
    | none =>
      rw [looked] at both
      cases both
    | some k =>
      rw [looked] at both
      cases both with
      | some same => exact same

/- Attention through the tables is attention to the stream. -/
theorem layerColumns (sound : CallSound blockSize older call) (streams : StreamsGrow older call old new)
    (enter : ColumnsEnter call positions new hidden)
    (runs : LayerRuns thinker blockSize reads call positions layer layerIdx hidden out caches caches' cache cache')
    (slots : SlotsHold reads (causalLayer thinker layer) (call::older) new cache') :
    ColumnsEnter call positions (fun k => pass (causalLayer thinker layer) [] (new k)) out where
  counted := runs.counted.trans enter.counted
  placed := enter.placed
  each n w writer := by
    obtain ⟨h,p,atHidden,atPosition,there⟩ := enter.each n w writer
    refine ⟨_,p,runs.attends n w h p writer atHidden atPosition,atPosition,?_⟩
    rw [passAt there (streams.all w.requestId)]
    have member : w.requestId ∈ call.requestIds := writerListed (List.mem_of_getElem? writer)
    obtain ⟨i,listed⟩ := List.mem_iff_getElem?.mp member
    have row := sound.rows i w.requestId listed
    have inside : w.position < (new w.requestId).length := (List.getElem?_eq_some_iff.mp there).1
    have total := streams.counted w.requestId member
    have seen : (List.range (w.position+1)).map (fun position =>
        reads cache' (entrySlot blockSize (tableOf call w.requestId) position)) =
        ((new w.requestId).take (w.position+1)).map (key (causalLayer thinker layer)) := by
      refine List.ext_getElem? fun position => ?_
      rcases Nat.lt_or_ge position (w.position+1) with below | past
      · have last := row.reads position (by omega)
        rw [← show tableOf call w.requestId = call.metadata.blockTables.getD i [] by rw [tableOf,idxOfGet sound.once listed]] at last
        have held := slots _ _ last
        dsimp only at held
        rw [List.getElem?_map,List.getElem?_range below,List.getElem?_map,List.getElem?_take_of_lt below,← List.getElem?_map,held]
        rfl
      · rw [List.getElem?_eq_none (by simpa using past),List.getElem?_eq_none (by simp; omega)]
    rw [seen]
    rfl

end OneLayer

theorem layersRun (lawful : Lawful thinker.kernels blockSize reads) (sound : CallSound blockSize older call)
    (unpadded : padSlotId ∉ call.metadata.slotMapping) {step : TextLayer η κ ρ ω → Nat → List η → OverCaches μ (List η)}
    (each : ∀ layer layerIdx hidden out caches caches', hidden.length = (writers call).length →
      step layer layerIdx hidden caches = .ok out caches' →
      ∃ cache cache', LayerRuns thinker blockSize reads call positions layer layerIdx hidden out caches caches' cache cache')
    {layers : List (TextLayer η κ ρ ω)} {first : Nat} {hidden out : List η} {caches caches' : List μ}
    (streams : StreamsGrow older call old new) (enter : ColumnsEnter call positions new hidden)
    (hold : CachesHold reads older (layers.map (causalLayer thinker)) first old caches)
    (ok : runLayers step layers first hidden caches = .ok out caches') :
    CachesHold reads (call::older) (layers.map (causalLayer thinker)) first new caches' ∧
    ColumnsEnter call positions (fun k => stackOut (layers.map (causalLayer thinker)) (fun _ => []) (new k)) out ∧
    ∀ i < first, caches'[i]? = caches[i]? := by
  induction layers generalizing first hidden caches old new with
  | nil =>
    cases ok
    exact ⟨trivial,enter,fun _ _ => rfl⟩
  | cons layer layers ih =>
    unfold runLayers at ok
    obtain ⟨middle,caches₁,head,ok⟩ := bindOk.mp ok
    obtain ⟨cache,cache',runs⟩ := each _ _ _ _ _ _ enter.counted head
    obtain ⟨⟨cache₀,found,slots⟩,rest⟩ := hold
    obtain rfl := Option.some.inj (found.symm.trans runs.found)
    have slots' := layerSlots lawful sound unpadded streams enter runs slots
    have rest' : CachesHold reads older (layers.map (causalLayer thinker)) (first+1)
        (fun k => pass (causalLayer thinker layer) [] (old k)) caches₁ := by
      rw [runs.after]
      exact cachesElsewhere (Nat.lt_succ_self first) rest
    obtain ⟨held,left,same⟩ := ih (streamsNext _ streams) (layerColumns sound streams enter runs slots') rest' ok
    have own : caches'[first]? = some cache' := by
      rw [same first (Nat.lt_succ_self first),runs.after,List.getElem?_set_self (List.getElem?_eq_some_iff.mp found).1]
    refine ⟨⟨⟨cache',own,slots'⟩,held⟩,left,fun i below => ?_⟩
    rw [same i (by omega),runs.after,List.getElem?_set_ne (by omega)]

end Stack

section History
variable (thinker : PagedThinker φ η μ κ ρ ω)

def stream (prompt : List (Column φ)) (tokens : List Nat) : List (Input η Int) :=
  (prompt ++ tokens.map (Column.mk · none)).mapIdx fun p c => ⟨thinker.embed c,p,true⟩

def streamOf (history : List (ForwardCall φ)) : Streams η := fun requestId =>
  stream thinker (promptOf true requestId history) ((decodeRows requestId history).map DecodeRow.token)

def choose (prompt : List (Column φ)) (tokens : List Nat) : Nat :=
  ((stackOut (thinker.layers.map (causalLayer thinker)) (fun _ => []) (stream thinker prompt tokens)).getLast?.map
    fun c => thinker.pick c.hidden).getD 0

variable {thinker} {blockSize : Nat} {call : ForwardCall φ} {older history : List (ForwardCall φ)} {lens : List Nat}
  {requestId : Nat}

@[simp] theorem streamLength {prompt : List (Column φ)} {tokens : List Nat} :
    (stream thinker prompt tokens).length = prompt.length+tokens.length := by
  simp [stream]

theorem streamAll {prompt : List (Column φ)} {tokens : List Nat} : ∀ c ∈ stream thinker prompt tokens, c.holds = true := by
  intro c inside
  obtain ⟨_,_,rfl⟩ := List.mem_mapIdx.mp inside
  rfl

theorem streamAt {prompt : List (Column φ)} {tokens : List Nat} {p : Nat} {c : Column φ}
    (found : (prompt ++ tokens.map (Column.mk · none))[p]? = some c) :
    (stream thinker prompt tokens)[p]? = some ⟨thinker.embed c,p,true⟩ := by
  rw [stream,List.getElem?_mapIdx,found]
  rfl

theorem mapIdxGrows {α β : Type} (f : Nat → α → β) (xs ys : List α) : xs.mapIdx f <+: (xs ++ ys).mapIdx f := by
  rw [List.mapIdx_append]
  exact List.prefix_append _ _

theorem streamGrows (prompt : List (Column φ)) (tokens more : List Nat) :
    stream thinker prompt tokens <+: stream thinker prompt (tokens ++ more) := by
  unfold stream
  rw [List.map_append,← List.append_assoc]
  exact mapIdxGrows _ _ _

theorem promptLength (fed : PromptFed call lens) {i : Nat} : (promptColumns true call lens i).length = lens.getD i 0 := by
  obtain ⟨row,columns,total⟩ := fed.columns
  cases found : lens[i]? with
  | none => simp [promptColumns,List.getD_eq_getElem?_getD,found]
  | some len =>
    have within := startWithin found
    unfold start at within
    simp only [promptColumns,columns,List.getD_eq_getElem?_getD,found,List.headD_cons,if_true,Option.getD_some,
      List.length_take,List.length_drop,total]
    omega

theorem fedLength (thinker : PagedThinker φ η μ κ ρ ω) (requestId : Nat) (fed : WellFed history) : (streamOf thinker history requestId).length = tokensFed requestId history := by
  induction history with
  | nil => rfl
  | cons call older ih =>
    obtain ⟨own,rest⟩ := fed
    have before := ih rest
    unfold streamOf at before ⊢
    rw [streamLength,List.length_map] at before ⊢
    by_cases listed : requestId ∈ call.requestIds
    · rw [promptOf,decodeRows,tokensFed,if_pos listed,if_pos listed,if_pos listed]
      unfold CallFed at own
      cases queries : call.metadata.queryLens with
      | some lens =>
        rw [queries] at own
        simp [promptLength own]
      | none =>
        simp only [Option.isSome_none,Bool.false_eq_true,if_false,List.length_append,List.length_singleton]
        omega
    · rw [promptOf,decodeRows,tokensFed,if_neg listed,if_neg listed,if_neg listed]
      exact before

theorem strangerEmpty (out : ∀ past ∈ history, requestId ∉ past.requestIds) : streamOf thinker history requestId = [] := by
  have both : promptOf true requestId history = [] ∧ decodeRows requestId history = [] := by
    induction history with
    | nil => exact ⟨rfl,rfl⟩
    | cons call older ih =>
      rw [promptOf,decodeRows,if_neg (out call List.mem_cons_self),if_neg (out call List.mem_cons_self)]
      exact ih fun past inside => out past (List.mem_cons_of_mem _ inside)
  rw [streamOf,both.1,both.2]
  rfl

theorem streamsOf (sound : CallSound blockSize older call) (fed : WellFed (call::older)) :
    StreamsGrow older call (streamOf thinker older) (streamOf thinker (call::older)) where
  grows requestId := by
    by_cases listed : requestId ∈ call.requestIds
    · cases queries : call.metadata.queryLens with
      | some lens =>
        rw [strangerEmpty (sound.fresh (by rw [queries]; rfl) requestId listed)]
        exact List.nil_prefix
      | none =>
        unfold streamOf
        rw [promptOf,decodeRows,if_pos listed,if_pos listed,queries]
        simp only [Option.isSome_none,Bool.false_eq_true,if_false,List.map_append]
        exact streamGrows _ _ _
    · unfold streamOf
      rw [promptOf,decodeRows,if_neg listed,if_neg listed]
  all _ := streamAll
  counted _ _ := fedLength _ _ fed

theorem promptEnters (thinker : PagedThinker φ η μ κ ρ ω) (queries : call.metadata.queryLens = some lens) (fed : PromptFed call lens)
    (sound : CallSound blockSize older call) :
    ColumnsEnter call call.positionIds.flatten (streamOf thinker (call::older)) (call.columns.flatten.map thinker.embed) := by
  obtain ⟨row,columns,total⟩ := fed.columns
  have ranges : (lens.map fun len => (List.range len).map fun p : Nat => (p:Int)).map List.length = lens := by simp [Function.comp_def]
  have counted : (writers call).length = lens.sum := by
    rw [promptWriters queries,List.length_flatten,List.map_map]
    calc _ = ((call.requestIds.zip lens).map Prod.snd).sum := congrArg _ (List.map_congr_left fun p _ => by simp)
      _ = lens.sum := by rw [List.map_snd_zip (by rw [fed.counted])]
  have positions : call.positionIds.flatten = (lens.map fun len => (List.range len).map fun p : Nat => (p:Int)).flatten := by
    rw [fed.positions]
    simp
  refine ⟨by simp [columns,total,counted],?_,fun n w writer => ?_⟩
  · rw [positions,List.length_flatten,ranges,counted]
  · obtain ⟨i,len,t,found,less,listed,rfl,rfl⟩ := packedWriter queries fed.counted writer
    have within := startWithin found
    have inside : start lens i+w.position < row.length := by omega
    have index := idxOfGet sound.once listed
    have prompt : promptOf true w.requestId (call::older) = (row.drop (lens.take i).sum).take len := by
      rw [promptOf,if_pos (List.mem_of_getElem? listed),queries]
      simp [promptColumns,columns,index,List.getD_eq_getElem?_getD,found]
    have none_ : decodeRows w.requestId (call::older) = [] := by
      rw [decodeRows,if_pos (List.mem_of_getElem? listed),queries]
      rfl
    have column : (promptOf true w.requestId (call::older))[w.position]? = some row[start lens i+w.position] := by
      rw [prompt,List.getElem?_take_of_lt less,List.getElem?_drop]
      exact List.getElem?_eq_getElem inside
    refine ⟨thinker.embed row[start lens i+w.position],w.position,?_,?_,?_⟩
    · simp [columns,inside]
    · have place : start lens i+w.position = offset (lens.map fun len => (List.range len).map fun p : Nat => (p:Int)) i+w.position := by
        rw [offset,ranges]
      rw [positions,place]
      exact flattenPlace.mpr ⟨i,_,w.position,by rw [List.getElem?_map,found]; rfl,by simp [less],rfl⟩
    · rw [streamOf,none_]
      exact streamAt (by rw [List.map_nil,List.map_nil,List.append_nil]; exact column)

theorem decodeEnters (thinker : PagedThinker φ η μ κ ρ ω) (queries : call.metadata.queryLens = none) (fed : DecodeFed older call) (before : WellFed older)
    (sound : CallSound blockSize older call) :
    ColumnsEnter call call.positionIds.flatten (streamOf thinker (call::older)) (call.columns.flatten.map thinker.embed) := by
  obtain ⟨tokens,size,columns⟩ := fed.columns
  have counted : (writers call).length = call.requestIds.length := by
    rw [writers,queries]
    simp [fed.contexts]
  have flat : call.columns.flatten = tokens.map fun token => ⟨token,none⟩ := by
    rw [columns,← List.flatMap_def,List.map_eq_flatMap]
  have positions : call.positionIds.flatten = call.requestIds.map fun requestId => (tokensFed requestId older : Int) := by
    rw [fed.positions,← List.flatMap_def,List.map_eq_flatMap]
  refine ⟨by simp [flat,size,counted],by simp [positions,counted],fun n w writer => ?_⟩
  obtain ⟨contextLen,listed,context,place⟩ := decodeWriterAt queries writer
  obtain ⟨total,_,_⟩ := decodeContext queries sound listed context
  have inside : n < tokens.length := size ▸ (List.getElem?_eq_some_iff.mp listed).1
  have index := idxOfGet sound.once listed
  have position : w.position = tokensFed w.requestId older := by omega
  have token : (decodeRowAt call (call.requestIds.idxOf w.requestId)).token = tokens[n] := by
    simp [decodeRowAt,index,columns,List.getD_eq_getElem?_getD,inside]
  have rows : decodeRows w.requestId (call::older) =
      decodeRows w.requestId older ++ [decodeRowAt call (call.requestIds.idxOf w.requestId)] := by
    rw [decodeRows,if_pos (List.mem_of_getElem? listed),queries]
    rfl
  have prompt : promptOf true w.requestId (call::older) = promptOf true w.requestId older := by
    rw [promptOf,if_pos (List.mem_of_getElem? listed),queries]
  have length : (promptOf true w.requestId older).length+(decodeRows w.requestId older).length = w.position := by
    have all := fedLength thinker w.requestId before
    rw [streamOf,streamLength,List.length_map] at all
    rw [all,position]
  refine ⟨thinker.embed ⟨tokens[n],none⟩,w.position,?_,?_,?_⟩
  · simp [flat,inside]
  · rw [positions,List.getElem?_map,listed,position]
    rfl
  · rw [streamOf,prompt,rows]
    refine streamAt ?_
    rw [List.getElem?_append_right (by omega)]
    simp only [List.map_append,List.map_map,List.map_singleton,token]
    rw [List.getElem?_append_right (by simp; omega)]
    simp [← length]

end History

section Calls
variable {thinker : PagedThinker φ η μ κ ρ ω} {blockSize : Nat} {reads : μ → Nat → κ} {call : ForwardCall φ}
  {older history : List (ForwardCall φ)} {caches caches' : List μ} {hidden : List η} {logits : Nat → Nat → Nat}

theorem rotaryOk {columns : List (Column φ)} {positionIds : List (List Int)} {positions : List Int}
    (ok : rotary columns positionIds = .ok positions) : positions = positionIds.flatten ∧ positions.length = columns.length := by
  unfold rotary at ok
  split at ok <;> try contradiction
  rename_i same
  cases ok
  exact ⟨rfl,not_not.mp same⟩

structure CallRuns (thinker : PagedThinker φ η μ κ ρ ω) (reads : μ → Nat → κ) (older : List (ForwardCall φ))
    (call : ForwardCall φ) (caches' : List μ) (hidden : List η) : Prop where
  hold : CachesHold reads (call::older) (thinker.layers.map (causalLayer thinker)) 0 (streamOf thinker (call::older)) caches'
  left : ColumnsEnter call call.positionIds.flatten (fun requestId =>
    stackOut (thinker.layers.map (causalLayer thinker)) (fun _ => []) (streamOf thinker (call::older) requestId)) hidden

theorem packedCall (lawful : Lawful thinker.kernels blockSize reads) (flash : thinker.flash = true) {lens : List Nat}
    (queries : call.metadata.queryLens = some lens) (fed : PromptFed call lens) (before : WellFed older)
    (sound : CallSound blockSize older call)
    (hold : CachesHold reads older (thinker.layers.map (causalLayer thinker)) 0 (streamOf thinker older) caches)
    (ok : forwardPackedPrefillWithPagedCache thinker call caches = .ok hidden caches') :
    CallRuns thinker reads older call caches' hidden := by
  have well : WellFed (call::older) := ⟨by unfold CallFed; rw [queries]; exact fed,before⟩
  unfold forwardPackedPrefillWithPagedCache at ok
  split at ok <;> try contradiction
  obtain ⟨positions,_,turn,ok⟩ := bindOk.mp ok
  obtain ⟨rotated,rfl⟩ := attemptOk.mp turn
  obtain ⟨rfl,_⟩ := rotaryOk rotated
  have enter := promptEnters thinker queries fed sound
  obtain ⟨held,left,_⟩ := layersRun lawful sound fed.slots (fun layer layerIdx hidden out caches caches' counted run =>
    packedRuns lawful flash queries fed sound (enter.placed.trans counted.symm) run) (streamsOf sound well) enter hold ok
  exact ⟨held,left⟩

theorem decodeCall (lawful : Lawful thinker.kernels blockSize reads) (queries : call.metadata.queryLens = none)
    (fed : DecodeFed older call) (before : WellFed older) (sound : CallSound blockSize older call)
    (hold : CachesHold reads older (thinker.layers.map (causalLayer thinker)) 0 (streamOf thinker older) caches)
    (ok : forwardWithPagedCache thinker call caches = .ok hidden caches') : CallRuns thinker reads older call caches' hidden := by
  have well : WellFed (call::older) := ⟨by unfold CallFed; rw [queries]; exact fed,before⟩
  obtain ⟨tokens,size,columns⟩ := fed.columns
  have one : (call.columns.headD []).length = 1 := by
    have some_ : tokens ≠ [] := List.ne_nil_of_length_pos (size ▸ List.length_pos_of_ne_nil fed.nonempty)
    obtain ⟨token,rest,rfl⟩ := List.exists_cons_of_ne_nil some_
    rw [columns]
    rfl
  unfold forwardWithPagedCache at ok
  obtain ⟨positions,_,turn,ok⟩ := bindOk.mp ok
  obtain ⟨rotated,rfl⟩ := attemptOk.mp turn
  obtain ⟨rfl,_⟩ := rotaryOk rotated
  rw [one] at ok
  have enter := decodeEnters thinker queries fed before sound
  have counted : (writers call).length = call.requestIds.length := by
    rw [writers,queries]
    simp [fed.contexts]
  obtain ⟨held,left,_⟩ := layersRun lawful sound fed.slots (fun layer layerIdx hidden out caches caches' size run =>
    decodeRuns lawful queries fed sound (enter.placed.trans size.symm) (size.trans counted) run) (streamsOf sound well) enter hold ok
  exact ⟨held,left⟩

theorem lastColumn (sound : CallSound blockSize older call) (fed : CallFed older call) {requestId : Nat}
    (listed : requestId ∈ call.requestIds) : ∃ (n : Nat) (w : Writer), (writers call)[n]? = some w ∧ w.requestId = requestId ∧
      w.position+1 = tokensFed requestId (call::older) ∧
      (answerOf true call requestId).1*(call.columns.headD []).length+(answerOf true call requestId).2 = n := by
  obtain ⟨i,there⟩ := List.mem_iff_getElem?.mp listed
  have index := idxOfGet sound.once there
  unfold CallFed at fed
  cases queries : call.metadata.queryLens with
  | some lens =>
    rw [queries] at fed
    have bound : i < lens.length := fed.counted ▸ (List.getElem?_eq_some_iff.mp there).1
    have found : lens[i]? = some lens[i] := List.getElem?_eq_getElem bound
    have positive := fed.positive _ (List.getElem_mem bound)
    have total : tokensFed requestId (call::older) = lens[i] := by
      rw [tokensFed,if_pos listed,queries]
      dsimp only
      rw [index,List.getD_eq_getElem?_getD,found]
      rfl
    refine ⟨start lens i+(lens[i]-1),⟨requestId,lens[i]-1⟩,?_,rfl,by rw [total]; dsimp only; omega,?_⟩
    · have lengths : ((call.requestIds.zip lens).map fun p => (List.range p.2).map (Writer.mk p.1)).map List.length = lens := by
        rw [List.map_map]
        calc _ = (call.requestIds.zip lens).map Prod.snd := List.map_congr_left fun p _ => by simp
          _ = lens := List.map_snd_zip (by rw [fed.counted])
      have place : start lens i+(lens[i]-1) =
          offset ((call.requestIds.zip lens).map fun p => (List.range p.2).map (Writer.mk p.1)) i+(lens[i]-1) := by
        rw [offset,lengths]
      have both : (call.requestIds.zip lens)[i]? = some (requestId,lens[i]) := List.getElem?_zip_eq_some.mpr ⟨there,found⟩
      rw [promptWriters queries,place]
      refine flattenPlace.mpr ⟨i,_,lens[i]-1,by rw [List.getElem?_map,both]; rfl,?_,rfl⟩
      rw [List.getElem?_map,List.getElem?_range (by omega)]
      rfl
    · simp [answerOf,queries,answerAt,index,start,List.getD_eq_getElem?_getD,found]
  | none =>
    rw [queries] at fed
    obtain ⟨tokens,size,columns⟩ := fed.columns
    have one : (call.columns.headD []).length = 1 := by
      have some_ : tokens ≠ [] := List.ne_nil_of_length_pos (size ▸ List.length_pos_of_ne_nil fed.nonempty)
      obtain ⟨token,rest,rfl⟩ := List.exists_cons_of_ne_nil some_
      rw [columns]
      rfl
    have bound : i < call.metadata.contextLens.length := fed.contexts ▸ (List.getElem?_eq_some_iff.mp there).1
    have context := List.getElem?_eq_getElem bound
    obtain ⟨counted,_,_⟩ := decodeContext queries sound there context
    refine ⟨i,⟨requestId,call.metadata.contextLens[i]-1⟩,?_,rfl,?_,?_⟩
    · have both : (call.requestIds.zip call.metadata.contextLens)[i]? = some (requestId,call.metadata.contextLens[i]) :=
        List.getElem?_zip_eq_some.mpr ⟨there,context⟩
      rw [writers,queries]
      dsimp only
      rw [List.getElem?_map,both]
      rfl
    · rw [tokensFed,if_pos listed,queries]
      dsimp only
      omega
    · rw [one,Nat.mul_one,answerOf,queries]
      exact index

/- What a call answers: for each of its requests, the token a causal pass over all its tokens picks. -/
theorem callAnswers (lawful : Lawful thinker.kernels blockSize reads) (packed : thinker.usePackedCudaPrefill = true)
    (flash : thinker.flash = true) (sound : CallSound blockSize older call) (fed : WellFed (call::older))
    (hold : CachesHold reads older (thinker.layers.map (causalLayer thinker)) 0 (streamOf thinker older) caches)
    (ok : forwardOver thinker call caches = .ok logits caches') :
    CachesHold reads (call::older) (thinker.layers.map (causalLayer thinker)) 0 (streamOf thinker (call::older)) caches' ∧
    ∀ requestId ∈ call.requestIds, logits (answerOf true call requestId).1 (answerOf true call requestId).2 =
      choose thinker (promptOf true requestId (call::older)) ((decodeRows requestId (call::older)).map DecodeRow.token) := by
  unfold forwardOver at ok
  obtain ⟨hidden,_,forward,ok⟩ := bindOk.mp ok
  cases ok
  have runs : CallRuns thinker reads older call caches' hidden := by
    have own := fed.1
    unfold CallFed at own
    cases queries : call.metadata.queryLens with
    | some lens =>
      rw [queries] at own
      unfold forwardHidden at forward
      rw [packed,queries] at forward
      exact packedCall lawful flash queries own fed.2 sound hold forward
    | none =>
      rw [queries] at own
      unfold forwardHidden at forward
      rw [packed,queries] at forward
      exact decodeCall lawful queries own fed.2 sound hold forward
  refine ⟨runs.hold,fun requestId listed => ?_⟩
  obtain ⟨n,w,writer,rfl,last,place⟩ := lastColumn sound fed.1 listed
  obtain ⟨h,p,there,_,leaves⟩ := runs.left.each n w writer
  have length : (stackOut (thinker.layers.map (causalLayer thinker)) (fun _ => [])
      (streamOf thinker (call::older) w.requestId)).length = w.position+1 := by
    rw [stackOutLength,fedLength _ _ fed,last]
  dsimp only
  rw [place,choose]
  change _ = ((stackOut _ _ (streamOf thinker (call::older) w.requestId)).getLast?.map fun c => thinker.pick c.hidden).getD 0
  rw [List.getLast?_eq_getElem?,length,Nat.add_sub_cancel,leaves]
  simp [there]

theorem allocatedHold {layers : List (Layer η Int κ)} {first : Nat} {streams : Streams η}
    (room : first+layers.length ≤ caches.length) : CachesHold (φ := φ) reads [] layers first streams caches := by
  induction layers generalizing first streams with
  | nil => trivial
  | cons layer layers ih =>
    rw [List.length_cons] at room
    exact ⟨⟨caches[first],List.getElem?_eq_getElem (by omega),fun slot w last => by cases last⟩,ih (by omega)⟩

theorem cachesHeld (lawful : Lawful thinker.kernels blockSize reads) (packed : thinker.usePackedCudaPrefill = true)
    (flash : thinker.flash = true) (allocated : thinker.allocated.length = thinker.layers.length)
    (sound : Sound blockSize history) (fed : WellFed history) (answered : AllAnswered (overPagedCache thinker) history) :
    CachesHold reads history (thinker.layers.map (causalLayer thinker)) 0 (streamOf thinker history)
      (cachesAfter thinker history) := by
  induction history with
  | nil => exact allocatedHold (by simp [cachesAfter,allocated])
  | cons call older ih =>
    obtain ⟨⟨logits,ok⟩,before⟩ := answered
    have hold := ih sound.2 fed.2 before
    unfold overPagedCache at ok
    dsimp only at ok
    split at ok <;> try contradiction
    rename_i logits' caches' ran
    have behind : cachesAfter thinker (call::older) = caches' := by
      change after (forwardOver thinker call (cachesAfter thinker older)) = caches'
      rw [ran]
      rfl
    rw [behind]
    exact (callAnswers lawful packed flash sound.1 fed hold ran).1

theorem writeKeysLength (metadata : PagedInputMetadata) (layerIdx : Nat) (keys : List κ) :
    Within (Leaves List.length) (writeKeys thinker metadata layerIdx keys) := by
  intro caches
  unfold writeKeys
  rw [bindThen (getRun _),afterAttempt]
  split
  · rw [afterAttempt]
    split
    · exact List.length_set
    · rfl
  · rfl

theorem layersLength {step : TextLayer η κ ρ ω → Nat → List η → OverCaches μ (List η)}
    (each : ∀ layer layerIdx hidden, Within (Leaves List.length) (step layer layerIdx hidden)) (layers : List (TextLayer η κ ρ ω))
    (layerIdx : Nat) (hidden : List η) : Within (Leaves List.length) (runLayers step layers layerIdx hidden) := by
  induction layers generalizing layerIdx hidden with
  | nil => exact withinPure hidden
  | cons layer layers ih => exact withinBind (each layer layerIdx hidden) fun _ => ih _ _

theorem forwardLength (call : ForwardCall φ) : Within (Leaves List.length) (forwardOver thinker call) := by
  refine withinBind ?_ fun _ => withinPure _
  unfold forwardHidden
  split
  · unfold forwardPackedPrefillWithPagedCache
    dsimp only
    split
    · exact withinThrow _
    refine withinBind (withinAttempt _) fun _ => layersLength (fun layer layerIdx hidden => ?_) _ _ _
    refine withinBind (withinAttempt _) fun _ => ?_
    split
    · exact withinThrow _
    exact withinBind (writeKeysLength _ _ _) fun _ => withinBind (withinAttempt _) fun _ =>
      withinBind (withinAttempt _) fun _ => withinBind (withinAttempt _) fun _ => withinPure _
  · refine withinBind (withinAttempt _) fun _ => layersLength (fun layer layerIdx hidden => ?_) _ _ _
    refine withinBind (withinAttempt _) fun _ => withinBind (writeKeysLength _ _ _) fun _ => ?_
    split
    · exact withinBind (withinAttempt _) fun _ => withinPure _
    · exact withinBind (withinAttempt _) fun _ => withinBind (withinAttempt _) fun _ => withinPure _

theorem cachesLength (history : List (ForwardCall φ)) : (cachesAfter thinker history).length = thinker.allocated.length := by
  induction history with
  | nil => rfl
  | cons call history ih => exact (forwardLength call (cachesAfter thinker history)).trans ih

end Calls

end Qwen3Asr.PagedMemory
