import MiniScheme.Expr.Equality
import MiniScheme.Expr.Traversal
import MiniScheme.Main
import MiniScheme.Proofs.AddressedPrograms
import MiniScheme.Proofs.BoundNameInvariance
import MiniScheme.Proofs.ByteScanning
import MiniScheme.Proofs.ContourMachine
import MiniScheme.Proofs.DataText
import MiniScheme.Proofs.Evaluable
import MiniScheme.Proofs.ExactAddresses
import MiniScheme.Proofs.FreeAddresses
import MiniScheme.Proofs.FreshDeclarations
import MiniScheme.Proofs.JoinedSources
import MiniScheme.Proofs.LetElimination
import MiniScheme.Proofs.LiteralTokens
import MiniScheme.Proofs.NumberWords
import MiniScheme.Proofs.ProgramText
import MiniScheme.Proofs.ReadablePasses
import MiniScheme.Proofs.ReadingBack
import MiniScheme.Proofs.ReadingData
import MiniScheme.Proofs.ReadingErrors
import MiniScheme.Proofs.ReadingGrammar
import MiniScheme.Proofs.RenamedAddresses
import MiniScheme.Proofs.ScopeAgreement
import MiniScheme.Proofs.ScopeSafety
import MiniScheme.Proofs.SubstitutionLaws
import MiniScheme.Proofs.TokenSpans
import MiniScheme.Proofs.Utf8
import MiniScheme.Proofs.WellFormedRuns
import MiniScheme.Proofs.LexicalText
import MiniScheme.Proofs.RepeatedAddressing
import MiniScheme.Proofs.NumberingOrder
import MiniScheme.Proofs.FreshSearch
import MiniScheme.Proofs.MentionedNames
