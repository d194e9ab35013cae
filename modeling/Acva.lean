import Acva.Lib.Runs
import Acva.Event.Event
import Acva.Dialogue.Turn
import Acva.Dialogue.Fsm
import Acva.Dialogue.FsmAccounting
import Acva.Dialogue.FsmCompletion
import Acva.Dialogue.SentenceSplitter
import Acva.Dialogue.Manager
import Acva.Dialogue.ManagerCancel
import Acva.Dialogue.BargeIn
import Acva.System.TurnIds
import Acva.Dialogue.TurnWriter
import Acva.System.SpokenOutcome
import Acva.System.Remembered
import Acva.Dialogue.TtsBridge
import Acva.Dialogue.TtsSilence
import Acva.Event.BoundedQueue
import Acva.Playback.Engine
import Acva.Playback.Draining
import Acva.Dialogue.TtsTokens
import Acva.System.Discard
import Acva.Audio.Endpointer
import Acva.Audio.Utterance
import Acva.Audio.Pipeline
import Acva.Stt.SttStack
import Acva.System.Deafness
import Acva.Playback.Heard
import Acva.Audio.Boundaries
import Acva.Audio.LiveSink
import Acva.System.LiveAudio
import Acva.Stt.Matching
import Acva.Event.Bus
import Acva.System.BusDeadlock
import Acva.Dialogue.Session
import Acva.Llm.PromptBuilder
import Acva.System.Storage
import Acva.System.PromptOnce
import Acva.System.OneSession
import Acva.Event.QueueThreads
import Acva.Event.Worker
import Acva.Event.Delivery
import Acva.Dialogue.SessionOps
import Acva.Dialogue.TtsAccounting
import Acva.System.Persisted
import Acva.Memory.Summaries
import Acva.Memory.Summarizer
import Acva.Config.Config
import Acva.Memory.BlockingReads
import Acva.Supervisor.Watchdog
import Acva.Config.Load
import Acva.Config.Paths
import Acva.Config.Reload
import Acva.Lib.Utf8
import Acva.Dialogue.SentenceCuts
import Acva.Dialogue.SentenceEnds
import Acva.Dialogue.CodeFences
import Acva.Playback.QueueAccounting
import Acva.Dialogue.TurnRows
import Acva.Dialogue.Generations
import Acva.Dialogue.SentenceCap
import Acva.Supervisor.PipelineGate
import Acva.Supervisor.Supervisor
import Acva.ModelController.EnvFile
import Acva.ModelController.Controller
import Acva.Playback.Rendering
import Acva.Audio.Loopback
import Acva.Audio.Endpointing
import Acva.Audio.Recording
import Acva.Audio.Hangover
import Acva.Llm.SseChunks
import Acva.Llm.SseEndings
import Acva.Stt.Base64
import Acva.Stt.Envelope
import Acva.Lib.Transactions
import Acva.Memory.Facts
import Acva.Memory.SourceHash
import Acva.Memory.Tables
import Acva.Memory.Recovery
import Acva.Memory.Atomicity
import Acva.Lib.Tiling
import Acva.Memory.SummaryRanges
import Acva.Llm.PromptMemory
import Acva.Memory.SummaryTriggers
import Acva.Config.HotReload
import Acva.Config.Aliases
import Acva.Lib.Json
import Acva.Http.ReloadResponse
import Acva.Tts.RequestBody
import Acva.Log.JsonSink
import Acva.Lib.Pcm
import Acva.Tts.PcmStream
import Acva.Audio.Wav
import Acva.Audio.WavChunks
import Acva.Audio.Capture
import Acva.Audio.HalfDuplex
import Acva.Audio.SpscRing
import Acva.Audio.Clock
import Acva.Http.Wipe
import Acva.Observability.TurnSpan
import Acva.Audio.Reframing
import Acva.Dialogue.SplitterIndices
import Acva.ModelController.EnvKeys
import Acva.ModelController.EnvWrite
import Acva.Memory.Integrity
import Acva.Memory.WarmRestart
import Acva.Dialogue.StreamedAnswer
import Acva.Stt.RealtimeWire
import Acva.Audio.Detectors
import Acva.ModelController.Handoff
import Acva.Lib.Stopwatches
import Acva.Metrics.Registry
import Acva.Metrics.HealthGauges
import Acva.Lib.Mirrors
import Acva.Config.ReloadConsumers
import Acva.System.SpokenAudio
import Acva.Memory.MemoryCli
import Acva.Memory.Refinement
