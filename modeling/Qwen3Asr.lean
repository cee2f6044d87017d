import Qwen3Asr.Library.Loop
import Qwen3Asr.BlockManager
import Qwen3Asr.PagedMetadata
import Qwen3Asr.SlotIsolation
import Qwen3Asr.PromptPositions
import Qwen3Asr.BatchEngine
import Qwen3Asr.Scheduler
import Qwen3Asr.DecodeOutcome
import Qwen3Asr.SchedulerTurn
import Qwen3Asr.SchedulerProgress
import Qwen3Asr.PrefillOutcome
import Qwen3Asr.CallHistory
import Qwen3Asr.SlotFate
import Qwen3Asr.SchedulerRules
import Qwen3Asr.SchedulerPositions
import Qwen3Asr.BlockOwnership
import Qwen3Asr.BlockConservation
import Qwen3Asr.SchedulerConservation
import Qwen3Asr.Library.Greedy
import Qwen3Asr.PromptColumns
import Qwen3Asr.RowOracle
import Qwen3Asr.GreedyRefinement
import Qwen3Asr.BatchRefinement
import Qwen3Asr.DecodeMetadata
import Qwen3Asr.PrefillMetadata
import Qwen3Asr.AudioRouting
import Qwen3Asr.MediaData
import Qwen3Asr.TranscribeServer
import Qwen3Asr.Library.ReservedWord
import Qwen3Asr.PromptBuilder
import Qwen3Asr.E2EVad
import Qwen3Asr.E2EVadRefinement
import Qwen3Asr.VadWindow
import Qwen3Asr.E2EVadChunks
import Qwen3Asr.VadSegments
import Qwen3Asr.VadStream
import Qwen3Asr.CausalMask
import Qwen3Asr.FlashAttention
import Qwen3Asr.BatchPrefill
import Qwen3Asr.PrefixReuse
import Qwen3Asr.AudioEncoder
import Qwen3Asr.AudioNormalize
import Qwen3Asr.EagerGeneration
import Qwen3Asr.EncoderBlocks
import Qwen3Asr.EncoderCache
import Qwen3Asr.Library.Pieces
import Qwen3Asr.Library.SharedTable
import Qwen3Asr.Library.Simulation
import Qwen3Asr.ModelIsolation
import Qwen3Asr.PushSplit
import Qwen3Asr.AudioStream
import Qwen3Asr.BatchPreparation
import Qwen3Asr.ChunkBatches
import Qwen3Asr.InferenceScheduler
import Qwen3Asr.Library.Service
import Qwen3Asr.Pipeline
import Qwen3Asr.RealtimeSocket
import Qwen3Asr.VadFinalize
import Qwen3Asr.VadSlices
import Qwen3Asr.AsrOutput
import Qwen3Asr.Cer
import Qwen3Asr.FixTimestamp
import Qwen3Asr.InputDedup
import Qwen3Asr.TranscribeBatch
import Qwen3Asr.VadMerge
import Qwen3Asr.WaveformPadding
import Qwen3Asr.AlignTokens
import Qwen3Asr.SchedulerAdmission
import Qwen3Asr.PipelineTimelines
import Qwen3Asr.RepetitionsKept
import Qwen3Asr.ChunkGroups
import Qwen3Asr.FeatLengths
import Qwen3Asr.StreamFraming
import Qwen3Asr.PrefillLogits
import Qwen3Asr.ChunkLimit
import Qwen3Asr.RegroupedRows
import Qwen3Asr.KvRefinement
import Qwen3Asr.EagerAgreement
import Qwen3Asr.OfflineAgreement
import Qwen3Asr.VadChunks
import Qwen3Asr.WindowRuns
import Qwen3Asr.IsqSkip
import Qwen3Asr.OutputPaths
import Qwen3Asr.VarlenLayouts
import Qwen3Asr.PackedVarlen
import Qwen3Asr.HybridDecode
import Qwen3Asr.PrefillMask
import Qwen3Asr.CachedLengths
import Qwen3Asr.BackendAgreement
import Qwen3Asr.OfflineTranscribe
import Qwen3Asr.ForcedAligner
import Qwen3Asr.ForcedAligner
