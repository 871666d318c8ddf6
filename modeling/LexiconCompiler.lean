import LexiconCompiler.Main
import LexiconCompiler.Proofs.Build.Confinement
import LexiconCompiler.Proofs.Build.Failures
import LexiconCompiler.Proofs.Build.Losses
import LexiconCompiler.Proofs.Build.Outcome
import LexiconCompiler.Proofs.Build.Repetition
import LexiconCompiler.Proofs.Document.Encoded
import LexiconCompiler.Proofs.Document.Expansion
import LexiconCompiler.Proofs.Document.Written
import LexiconCompiler.Proofs.Json.Reading
import LexiconCompiler.Proofs.Module.Bindings
import LexiconCompiler.Proofs.Module.ConstantValues
import LexiconCompiler.Proofs.Module.Fields
import LexiconCompiler.Proofs.Module.Generation
import LexiconCompiler.Proofs.Module.Header
import LexiconCompiler.Proofs.Module.Strings
import LexiconCompiler.Proofs.Name.Pascal
import LexiconCompiler.Proofs.Schema.Compilation
import LexiconCompiler.Proofs.Schema.Grammar
import LexiconCompiler.Proofs.Source.DocstringValue
import LexiconCompiler.Proofs.Name.Boundaries
import LexiconCompiler.Proofs.Name.Declarable
import LexiconCompiler.Proofs.Module.Naming
import LexiconCompiler.Proofs.Name.ScreamingSnake
import LexiconCompiler.Proofs.FileTree.Discovery
import LexiconCompiler.Proofs.Module.Encodings
import LexiconCompiler.Proofs.Source.NormalForm
