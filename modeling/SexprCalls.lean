import SexprCalls.Bytes
import SexprCalls.Text.Utf8
import SexprCalls.Text.Blank
import SexprCalls.Text.Printable
import SexprCalls.Text.Quoted
import SexprCalls.Text.Columns
import SexprCalls.Position
import SexprCalls.Cause
import SexprCalls.FurtherKind
import SexprCalls.Token
import SexprCalls.Token.Scan
import SexprCalls.Form
import SexprCalls.Form.Read
import SexprCalls.SourceNode
import SexprCalls.OutputNode
import SexprCalls.FileError
import SexprCalls.Error
import SexprCalls.Step
import SexprCalls.SourceNode.Walk
import SexprCalls.SourceNode.Check
import SexprCalls.Lowering
import SexprCalls.OutputNode.Print
import SexprCalls.Files
import SexprCalls.Files.Path
import SexprCalls.Files.Tree
import SexprCalls.Compiler
import SexprCalls.Compiler.Log
import SexprCalls.Text.Integer
import SexprCalls.CommandLine.Arguments
import SexprCalls.CommandLine.Help
import SexprCalls.CommandLine.Dump
import SexprCalls.CommandLine.Outcome
import SexprCalls.CommandLine.Report
import SexprCalls.CommandLine.Run
import SexprCalls.Main
import SexprCalls.Proofs.CharacterDecoding
import SexprCalls.Proofs.QuotedText
import SexprCalls.Proofs.LexemeSpelling
import SexprCalls.Proofs.LexicalCut
import SexprCalls.Proofs.ScannerExactness
import SexprCalls.Proofs.LexicalErrors
import SexprCalls.Proofs.RepeatedScanning
import SexprCalls.Proofs.FormGrammar
import SexprCalls.Proofs.StepOutcome
import SexprCalls.Proofs.StructuralLowering
import SexprCalls.Proofs.WalkTour
import SexprCalls.Proofs.RecordedWalk
import SexprCalls.Proofs.KeptChildren
import SexprCalls.Proofs.PrintedText
import SexprCalls.Proofs.CompiledText
import SexprCalls.Proofs.SourceSpelling
import SexprCalls.Proofs.NestingCheck
import SexprCalls.Proofs.CallNesting
import SexprCalls.Proofs.UnambiguousText
import SexprCalls.Proofs.ViablePrefix
import SexprCalls.Proofs.Concatenation
import SexprCalls.Proofs.OutputShape
import SexprCalls.Proofs.RepeatedReading
import SexprCalls.Proofs.StageEvents
import SexprCalls.Proofs.ParenthesisBalance
import SexprCalls.Proofs.TruncatedLexemes
import SexprCalls.Proofs.TokenPositions
import SexprCalls.Proofs.ErrorPositions
import SexprCalls.Proofs.TokenListing
import SexprCalls.Proofs.TruncatedSource
import SexprCalls.Proofs.ByteCounts
import SexprCalls.Proofs.EntryPaths
import SexprCalls.Proofs.CheckReport
import SexprCalls.Proofs.FailureLines
import SexprCalls.Proofs.WorkerPool
