import PatternTree.Cursor
import PatternTree.Main
import PatternTree.Phrase.Lexemes
import PatternTree.Proofs.Legality.Widths
import PatternTree.Proofs.Coverage.Parsing
import PatternTree.Proofs.Grammar.Parsing
import PatternTree.Proofs.RoundTrip.Parsing
import PatternTree.Proofs.Tree.Shape
import PatternTree.Proofs.Locality.Alternation
import PatternTree.Proofs.Locality.Slices
import PatternTree.Proofs.Brackets.Scan
import PatternTree.Proofs.Brackets.Agreement
import PatternTree.Descent
import PatternTree.Descent.Expressions
import PatternTree.Proofs.Descent.Expressions
import PatternTree.Proofs.Locality.Grouping
import PatternTree.Proofs.Diagnosis.Places
import PatternTree.Proofs.Recovery.Completion
import PatternTree.Proofs.Meaning.Height
import PatternTree.Proofs.Descent.Skipping
import PatternTree.Proofs.Descent.Ahead
import PatternTree.Proofs.Descent.Ranges
import PatternTree.Proofs.Descent.Entries
import PatternTree.Proofs.Descent.SetTokens
import PatternTree.Proofs.Descent.Stacks
import PatternTree.Proofs.Descent.Modifiers
import PatternTree.Proofs.Tokens.Boundaries
import PatternTree.Proofs.Tokens.Streams
import PatternTree.Proofs.Tokens.Concatenation
import PatternTree.Proofs.CommandLine.Lines
import PatternTree.Proofs.CommandLine.Session
