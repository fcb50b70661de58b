import RegexForge.Proofs.MergeLaw
import RegexForge.Proofs.Reread
import RegexForge.Proofs.Contents
import RegexForge.Proofs.Redeclare
import RegexForge.Proofs.Lowering
import RegexForge.Proofs.Derivation
import RegexForge.Proofs.Canonical
import RegexForge.Proofs.MergedStart
import RegexForge.Proofs.Referents
import RegexForge.Proofs.Spans
import RegexForge.Proofs.ScriptText
import RegexForge.Proofs.Composition
import RegexForge.Proofs.Brackets
import RegexForge.Proofs.ReferenceText
import RegexForge.Proofs.TreeShape
import RegexForge.Proofs.Enclosing
import RegexForge.Proofs.SourceLines
import RegexForge.Proofs.Waiting
import RegexForge.Proofs.BuiltNodes
import RegexForge.Proofs.Tiling
import RegexForge.Proofs.Escapes
import RegexForge.Proofs.ZeroWidth
import RegexForge.Proofs.Bounds
import RegexForge.Proofs.RepeatedText
import RegexForge.Proofs.RawControls
