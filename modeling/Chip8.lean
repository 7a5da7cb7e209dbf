import Chip8.Action
import Chip8.Main
import Chip8.Proofs.CallStack
import Chip8.Proofs.FaultAtomicity
import Chip8.Proofs.FrameActions
import Chip8.Proofs.FrameOrder
import Chip8.Proofs.FrameSplit
import Chip8.Proofs.KeyLevels
import Chip8.Proofs.KeyWait
import Chip8.Proofs.Mnemonic
import Chip8.Proofs.Restart
import Chip8.Proofs.Suspension
import Chip8.Proofs.Transcript
import Chip8.Proofs.ScheduleOrder
import Chip8.Proofs.Pacing
import Chip8.Proofs.DialectLocality
import Chip8.Proofs.ConfigOutcome
import Chip8.Proofs.Courses
import Chip8.Proofs.Effects
import Chip8.Proofs.Redraw
import Chip8.Proofs.TimerCadence
import Chip8.Proofs.RandomDraws
import Chip8.Proofs.TraceLines
import Chip8.Proofs.FrameAccounting
import Chip8.Proofs.SpriteHits
import Chip8.Proofs.ScreenText
import Chip8.Proofs.ConfigReload
import Chip8.Proofs.HeadlessRun
import Chip8.Proofs.FileTrees
import Chip8.Proofs.StreamBlindness
import Chip8.Proofs.CommandFiles
import Chip8.Proofs.CommandChecks
import Chip8.Proofs.CommandOutcome
import Chip8.Proofs.StoreLoad
import Chip8.Proofs.Arithmetic
import Chip8.Proofs.Numerals
import Chip8.Proofs.WordNames
import Chip8.Proofs.Footprint
import Chip8.Proofs.TextFiles
import Chip8.Proofs.IntegerSpellings
import Chip8.Proofs.LetterCases
import Chip8.Proofs.ScheduleLines
import Chip8.Proofs.ScheduleReading
import Chip8.Proofs.ScheduleWriting
import Chip8.Proofs.ConfigNormalForm
import Chip8.Proofs.ConfigFiles
import Chip8.Proofs.DrawingOrder
import Chip8.Proofs.StoreHistory
import Chip8.Proofs.ProgramImages
import Chip8.Proofs.TraceColumns
import Chip8.Proofs.KeypadHistory
import Chip8.Proofs.DumpText
