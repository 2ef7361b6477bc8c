import EventScript.Main
import EventScript.Proofs.ExpressionRoundTrip
import EventScript.Proofs.ScriptText
import EventScript.Proofs.FurthestRefusal
import EventScript.Proofs.Glyphs
import EventScript.Proofs.Relexing
import EventScript.Proofs.LineBreaks
import EventScript.Proofs.Completions
import EventScript.Proofs.Lookahead
import EventScript.Proofs.FirstImpossibleToken
import EventScript.Proofs.Continuations
import EventScript.Proofs.CutTexts
import EventScript.Proofs.JoinedTexts
import EventScript.Proofs.AlikeReports
import EventScript.Proofs.LineTerminators
import EventScript.Proofs.DisplayForms
import EventScript.Proofs.LexerRuns
import EventScript.Proofs.TokenLayout
import EventScript.Proofs.ReportedLines
import EventScript.Proofs.GuardedLexing
import EventScript.Proofs.CallDepth
import EventScript.Proofs.EscapedLiterals
import EventScript.Proofs.WidenedTexts
import EventScript.Proofs.EmbeddedExpressions
import EventScript.Proofs.ParserRuns
import EventScript.Proofs.FormOrder
import EventScript.Proofs.FoldedSections
import EventScript.Proofs.ProjectBuilds
import EventScript.Proofs.Decoding
import EventScript.Proofs.FileContents
import EventScript.Proofs.NumberedExcerpts
import EventScript.Proofs.ManifestTypes
import EventScript.Proofs.NamePatterns
import EventScript.Proofs.Searches
import EventScript.Proofs.Discovery
import EventScript.Proofs.FileExtensions
import EventScript.Proofs.Likeness
import EventScript.Proofs.VersionLookup
import EventScript.Proofs.ExpressionPlaces
