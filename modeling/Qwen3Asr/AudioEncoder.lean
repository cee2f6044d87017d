import Mathlib.Algebra.Group.Defs
import Mathlib.Algebra.Order.Floor.Div
import Qwen3Asr.Library.Grid
import Qwen3Asr.PromptBuilder

/-! The audio tower on one sample: chunks of frames go through the convolutions apart from each
other, then the layers attend within windows of tokens. Convolutions and layers are parameters. -/
namespace Qwen3Asr.AudioEncoder
open Library Library.Effect Library.Word PromptBuilder

structure AudioTower (K η : Type) where
  numMelBins : Nat
  nWindow : Nat
  nWindowInfer : Nat
  nWindowInferFits : nWindowInfer < 2^64
  maxSourcePositions : Nat
  useFlashAttn : Bool
  /-- Device and type checks of flash attention. -/
  flashReady : Except String Unit
  /-- The tokens of a padded chunk, by their place in it, with the positional embedding added. -/
  conv : List (List K) → Nat → η
  /-- A layer's output at a place of an attention window. -/
  layers : List (List η → Nat → η)

variable {K η : Type}

def strided (n : Nat) : Nat := (n+1)/2

def maxT (window : Nat) : Nat := strided (strided (strided window))

def window (tower : AudioTower K η) : Except String Nat := do
  let window ← okOr (checkedMul tower.nWindow 2) "n_window overflow"
  if window = 0 then .error "audio_config.n_window must be > 0" else .ok window

def chunkLengths (frames window : Nat) : List Nat :=
  let chunkNum := frames ⌈/⌉ window
  let lengths := List.replicate chunkNum window
  if 0 < chunkNum ∧ frames%window ≠ 0 then lengths.set (chunkNum-1) (frames%window) else lengths

section Windows

def offsetsFrom (aftercnnLen windowAftercnn : Nat) : Nat → Nat → List Nat
  | 0, _ => []
  | fuel+1, offset =>
    if offset < aftercnnLen then
      let next := offset+min (aftercnnLen-offset) windowAftercnn
      next :: offsetsFrom aftercnnLen windowAftercnn fuel next
    else []

/- Every step is one token at least, so that there are no more steps than tokens. -/
def cuSeqlensFromAftercnnLen (aftercnnLen maxChunkLenAftercnn window windowInfer : Nat) : Except String (List Nat) := do
  if aftercnnLen = 0 then .ok [0] else
  if window = 0 then .error "audio_config window must be > 0" else
  let ratio := windowInfer/window
  if ratio = 0 then
    .error s!"audio_config.n_window_infer must be >= audio_config.n_window*2: n_window_infer={windowInfer} window={window}"
  else
  let windowAftercnn ← okOr (checkedMul maxChunkLenAftercnn ratio)
    s!"window_aftercnn overflow: max_chunk_len_aftercnn={maxChunkLenAftercnn} ratio={ratio}"
  if windowAftercnn = 0 then
    .error s!"invalid window_aftercnn=0: max_chunk_len_aftercnn={maxChunkLenAftercnn} ratio={ratio}"
  else
  let cu := 0 :: offsetsFrom aftercnnLen windowAftercnn aftercnnLen 0
  if cu.getLast? ≠ some aftercnnLen then
    .error s!"internal error: cu_seqlens did not reach aftercnn_len: last={cu.getLast?} aftercnn_len={aftercnnLen}"
  else .ok cu

def segments {α : Type} (xs : List α) : List Nat → List (List α)
  | start::stop::rest => (xs.drop start).take (stop-start) :: segments xs (stop::rest)
  | _ => []

def forwardLayer (layer : List η → Nat → η) (cuSeqlens : List Nat) (hidden : List η) : List η :=
  (segments hidden cuSeqlens).flatMap fun win => (List.range win.length).map (layer win)

end Windows

section Forward
variable [Zero K] (tower : AudioTower K η)

/- The tokens kept of a chunk; the rest of it is padding. -/
def chunkTokens (window : Nat) (chunk : List (List K)) (len : Nat) : List η :=
  let padded := chunk.map fun row => row ++ List.replicate (window-len) 0
  (List.range (featExtractOutputLength len)).map (tower.conv padded)

def keptIndices (window : Nat) (lengths : List Nat) : Except String Unit := do
  let _ ← lengths.zipIdx.mapM fun (len,chunkIdx) =>
    let aftercnnLen := featExtractOutputLength len
    if maxT window < aftercnnLen then .error s!"aftercnn_len={aftercnnLen} exceeds max_t={maxT window}" else do
    let base ← okOr (checkedMul chunkIdx (maxT window)) "index overflow"
    (List.range aftercnnLen).mapM fun j => do
      let pos ← okOr (checkedAdd base j) "index overflow"
      okOr (u32TryFrom pos) "index overflow"
  .ok ()

def hiddenStates (window : Nat) (inputFeature : List (List K)) : Nat → List Nat → List η
  | _, [] => []
  | offset, len::lengths =>
    chunkTokens tower window (inputFeature.map fun row => (row.drop offset).take len) len ++
      hiddenStates window inputFeature (offset+len) lengths

def attentionWindows (window frames idxLen : Nat) : Except String (List Nat) := do
  if tower.useFlashAttn then
    let aftercnnTotal := featExtractOutputLength frames
    if aftercnnTotal ≠ idxLen then
      .error s!"aftercnn length mismatch: expected={aftercnnTotal}, got={idxLen}"
    else
    let cu ← cuSeqlensFromAftercnnLen aftercnnTotal (maxT window) window tower.nWindowInfer
    if tower.layers ≠ [] ∧ idxLen ≠ 0 then tower.flashReady else .ok ()
    .ok cu
  else .ok [0,idxLen]

def forwardOne (inputFeature : Grid K) : Except String (List η) := do
  let frames := inputFeature.width
  if inputFeature.rows.length ≠ tower.numMelBins then
    .error s!"input_feature mel bins mismatch: expected={tower.numMelBins}, got={inputFeature.rows.length}"
  else
  let window ← window tower
  let lengths := chunkLengths frames window
  if lengths = [] then .ok [] else
  if tower.maxSourcePositions < maxT window then
    .error s!"narrow invalid args start + len > dim_len: 0 {maxT window} {tower.maxSourcePositions}"
  else
  keptIndices window lengths
  let hidden := hiddenStates tower window inputFeature.rows 0 lengths
  let cuSeqlens ← attentionWindows tower window frames hidden.length
  .ok (tower.layers.foldl (fun hidden layer => forwardLayer layer cuSeqlens hidden) hidden)

def forwardWithLens (inputFeatures : Grid K) (featureLen : Nat) : Except String (List η) := do
  if inputFeatures.rows.length ≠ tower.numMelBins then
    .error s!"input_features mel bins mismatch: expected={tower.numMelBins}, got={inputFeatures.rows.length}"
  else
  if inputFeatures.width < featureLen then
    .error s!"feature_lens[0] exceeds frames: len={featureLen} frames={inputFeatures.width}"
  else if featureLen = 0 then .ok []
  else forwardOne tower (inputFeatures.columns 0 featureLen)

end Forward

end Qwen3Asr.AudioEncoder
