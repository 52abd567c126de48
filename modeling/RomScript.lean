import RomScript.Main
import RomScript.Proofs.Image.Reads
import RomScript.Proofs.Image.Spelling
import RomScript.Proofs.Instruction.Extent
import RomScript.Proofs.Instruction.Encoding
import RomScript.Proofs.Device.Replay
import RomScript.Proofs.Effect.Failure
import RomScript.Proofs.Effect.Verdict
import RomScript.Proofs.Engine.Execution
import RomScript.Proofs.Engine.Outline
import RomScript.Proofs.Engine.Skipping
import RomScript.Proofs.Engine.Budget
import RomScript.Proofs.Engine.Balance
import RomScript.Proofs.Engine.Disassembly
import RomScript.Proofs.Engine.Repetition
import RomScript.Proofs.Engine.Endings
import RomScript.Proofs.Engine.Milestones
import RomScript.Proofs.Engine.Rest
import RomScript.Proofs.Engine.ExecuteFlag
import RomScript.Proofs.Engine.Failure
import RomScript.Proofs.Batch.Attribution
import RomScript.Proofs.Engine.Retelling
import RomScript.Proofs.Trace.Verbosity
import RomScript.Proofs.Engine.Limits
import RomScript.Proofs.Instruction.Rendering
import RomScript.Proofs.Image.BmpResolution
import RomScript.Proofs.Engine.Domain
import RomScript.Proofs.Device.Hooks
import RomScript.Proofs.Engine.NestedRepetition
import RomScript.Proofs.Engine.Relocation
import RomScript.Proofs.Engine.Column
import RomScript.Proofs.Effect.Requests
import RomScript.Proofs.Engine.Selection
import RomScript.Proofs.Engine.MemorySequence
import RomScript.Proofs.Text.NumberGrammar
import RomScript.Proofs.Device.FixtureBuild
import RomScript.Proofs.Device.Transfers
import RomScript.Proofs.Engine.Polling
import RomScript.Proofs.Device.CallText
import RomScript.Proofs.Batch.ScriptTable
import RomScript.Proofs.Image.Addresses
import RomScript.Proofs.Trace.OffsetColumns
