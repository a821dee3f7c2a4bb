import NotebookKernel.Artifact
import NotebookKernel.Call
import NotebookKernel.Call.Phase
import NotebookKernel.Child
import NotebookKernel.Chunk
import NotebookKernel.CommandLine.Arguments
import NotebookKernel.CommandLine.Commands
import NotebookKernel.CommandLine.Failure
import NotebookKernel.CommandLine.Usage
import NotebookKernel.Decimal.Binary64
import NotebookKernel.Decimal.Shortest
import NotebookKernel.Digest.Sha256
import NotebookKernel.Evaluation.Collection
import NotebookKernel.Evaluation.Kernel
import NotebookKernel.Evaluation.Request
import NotebookKernel.Evaluation.Result
import NotebookKernel.Evaluation.Run
import NotebookKernel.Fault
import NotebookKernel.FileTree
import NotebookKernel.Frame
import NotebookKernel.HelpRequest
import NotebookKernel.Host
import NotebookKernel.Json.Basic
import NotebookKernel.Json.Printer
import NotebookKernel.Json.Reader
import NotebookKernel.Json.Record
import NotebookKernel.Json.Tree
import NotebookKernel.Language.Client
import NotebookKernel.Language.Completion
import NotebookKernel.Language.Dialogue
import NotebookKernel.Language.Signature
import NotebookKernel.Main
import NotebookKernel.Output
import NotebookKernel.Path
import NotebookKernel.Position
import NotebookKernel.Program
import NotebookKernel.Rpc.Correlator
import NotebookKernel.Rpc.Message
import NotebookKernel.Scanner
import NotebookKernel.Sentinels
import NotebookKernel.Session
import NotebookKernel.Session.Registry
import NotebookKernel.Session.Turns
import NotebookKernel.Settings
import NotebookKernel.Text.Blank
import NotebookKernel.Text.Lines
import NotebookKernel.Text.Numeral
import NotebookKernel.Text.Search
import NotebookKernel.Text.Utf8
import NotebookKernel.Text.Word
import NotebookKernel.Toml.Moment
import NotebookKernel.Toml.Number
import NotebookKernel.Toml.Quoted
import NotebookKernel.Toml.Reader
import NotebookKernel.Toml.Value
import NotebookKernel.Uri
import NotebookKernel.Variable
import NotebookKernel.VirtualDocument
import NotebookKernel.Proofs.Frame.Chunking
import NotebookKernel.Proofs.Frame.Header
import NotebookKernel.Proofs.Frame.Oversize
import NotebookKernel.Proofs.Frame.RoundTrip
import NotebookKernel.Proofs.Rpc.Operation
import NotebookKernel.Proofs.Rpc.Correlation
import NotebookKernel.Proofs.Scanner
import NotebookKernel.Proofs.Call
import NotebookKernel.Proofs.Session.Attention
import NotebookKernel.Proofs.Session.Floor
import NotebookKernel.Proofs.Session.Isolation
import NotebookKernel.Proofs.Rpc.Teardown
import NotebookKernel.Proofs.Language.Reading
import NotebookKernel.Proofs.Output.Extraction
import NotebookKernel.Proofs.Output.Report
import NotebookKernel.Proofs.Call.Conduct
import NotebookKernel.Proofs.Output.Recognition
import NotebookKernel.Proofs.Session.Settling
import NotebookKernel.Proofs.Session.Conclusion
import NotebookKernel.Proofs.Chunk.Finding
import NotebookKernel.Proofs.Chunk.Outline
import NotebookKernel.Proofs.Program.Composition
import NotebookKernel.Proofs.Session.Registration
import NotebookKernel.Proofs.Session.Service
import NotebookKernel.Proofs.Session.Keeping
import NotebookKernel.Proofs.Session.Resolution
import NotebookKernel.Proofs.Session.Failure
import NotebookKernel.Proofs.Evaluation.Degradation
import NotebookKernel.Proofs.FileTree.Location
import NotebookKernel.Proofs.FileTree.Making
import NotebookKernel.Proofs.Artifact
import NotebookKernel.Proofs.Evaluation.Confinement
import NotebookKernel.Proofs.Language.Exchange
import NotebookKernel.Proofs.Language.Authors
import NotebookKernel.Proofs.Language.Writing
import NotebookKernel.Proofs.Language.Greeting
import NotebookKernel.Proofs.Session.Sharing
import NotebookKernel.Proofs.Session.Single
import NotebookKernel.Proofs.Evaluation.Sending
import NotebookKernel.Proofs.Evaluation.Running
import NotebookKernel.Proofs.Language.Failing
import NotebookKernel.Proofs.Language.Pending
import NotebookKernel.Proofs.Scanner.Naive
import NotebookKernel.Proofs.Output.Partition
import NotebookKernel.Proofs.Chunk.Header
import NotebookKernel.Proofs.Chunk.Numbering
import NotebookKernel.Proofs.Chunk.Alignment
import NotebookKernel.Proofs.Frame.Grammar
import NotebookKernel.Proofs.Language.Completion
import NotebookKernel.Proofs.Rpc.Reencoding
import NotebookKernel.Proofs.Variable.Snapshot
import NotebookKernel.Proofs.HelpRequest
import NotebookKernel.Proofs.Sentinels
import NotebookKernel.Proofs.VirtualDocument
