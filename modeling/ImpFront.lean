import ImpFront.Main
import ImpFront.Proofs.Grammar.FirstFault
import ImpFront.Proofs.Source.Lossless
import ImpFront.Proofs.Cursor.Session
import ImpFront.Proofs.Typing.Agreement
import ImpFront.Proofs.Grammar.Shape
import ImpFront.Proofs.Grammar.Marks
import ImpFront.Proofs.Grammar.Concatenation
import ImpFront.Proofs.Source.LongestMatch
import ImpFront.Proofs.Report.Agreement
import ImpFront.Proofs.Source.Offsets
import ImpFront.Proofs.Typing.FlatScope
import ImpFront.Proofs.Source.Written
import ImpFront.Proofs.Source.Blanked
import ImpFront.Proofs.Grammar.ErrorOrder
import ImpFront.Proofs.Typing.Layout
import ImpFront.Proofs.Source.LineBreak
import ImpFront.Proofs.Grammar.Yield
import ImpFront.Proofs.Typing.OperandOrder
import ImpFront.Proofs.Report.Caret
import ImpFront.Proofs.Grammar.Blocks
import ImpFront.Proofs.Typing.Declarations
import ImpFront.Proofs.Typing.Leaves
import ImpFront.Proofs.Typing.Table
import ImpFront.Proofs.Report.Unreported
import ImpFront.Proofs.Tree.Printing
import ImpFront.Proofs.Tree.Unambiguous
import ImpFront.Proofs.Cursor.Integers
import ImpFront.Proofs.Report.Hints
import ImpFront.Proofs.Report.Content
import ImpFront.Proofs.Typing.Renaming
import ImpFront.Proofs.Typing.Hoisting
import ImpFront.Proofs.Cursor.Landing
import ImpFront.Proofs.Grammar.ClosingBrace
import ImpFront.Proofs.Tree.Spine
