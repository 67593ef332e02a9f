import CilBuffer.Assignment
import CilBuffer.Binary.Format
import CilBuffer.Binary.Text
import CilBuffer.Buffer.Basic
import CilBuffer.Buffer.Describe
import CilBuffer.Decimal.Shortest
import CilBuffer.Error
import CilBuffer.Identity
import CilBuffer.Linker
import CilBuffer.Metadata.Member
import CilBuffer.Metadata.Signature
import CilBuffer.Metadata.Type
import CilBuffer.Offsets
import CilBuffer.Opcode.Basic
import CilBuffer.Opcode.Forms
import CilBuffer.Opcode.Lookup
import CilBuffer.Opcode.Marker
import CilBuffer.Proofs.Activities
import CilBuffer.Proofs.BufferAgreement
import CilBuffer.Proofs.CacheFreeRuns
import CilBuffer.Proofs.CallTallies
import CilBuffer.Proofs.CommutingFlushes
import CilBuffer.Proofs.DescribedLines
import CilBuffer.Proofs.FirstUse
import CilBuffer.Proofs.FlushDrift
import CilBuffer.Proofs.FlushedBytes
import CilBuffer.Proofs.FlushedCalls
import CilBuffer.Proofs.FoundedCalls
import CilBuffer.Proofs.GrowingCalls
import CilBuffer.Proofs.Handles
import CilBuffer.Proofs.InsertedLines
import CilBuffer.Proofs.Mnemonics
import CilBuffer.Proofs.MovedSteps
import CilBuffer.Proofs.NamesInLines
import CilBuffer.Proofs.OffsetHistory
import CilBuffer.Proofs.OffsetQuestions
import CilBuffer.Proofs.OmittedDefinitions
import CilBuffer.Proofs.OwnCalls
import CilBuffer.Proofs.Pieces
import CilBuffer.Proofs.QuotedLiterals
import CilBuffer.Proofs.References
import CilBuffer.Proofs.Refusals
import CilBuffer.Proofs.RegionMatching
import CilBuffer.Proofs.Regions
import CilBuffer.Proofs.RememberedOffsets
import CilBuffer.Proofs.Renumbering
import CilBuffer.Proofs.RepeatedFlushes
import CilBuffer.Proofs.ReplacedOpcodes
import CilBuffer.Proofs.Resolutions
import CilBuffer.Proofs.Runs
import CilBuffer.Proofs.ScopeOrder
import CilBuffer.Proofs.ShownMnemonics
import CilBuffer.Proofs.SlotNumerals
import CilBuffer.Proofs.StepReading
import CilBuffer.Proofs.TableAgreement
import CilBuffer.Proofs.UndoneEdits
import CilBuffer.Proofs.Words
import CilBuffer.Recorder.Basic
import CilBuffer.Recorder.Call
import CilBuffer.Scope
import CilBuffer.Session.Basic
import CilBuffer.Session.Operation
import CilBuffer.Step.Basic
import CilBuffer.Step.Link
import CilBuffer.Step.Tags
import CilBuffer.Step.Text
import CilBuffer.Text.Blank
import CilBuffer.Text.Numeral
import CilBuffer.Text.Quoted
