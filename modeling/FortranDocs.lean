import FortranDocs.Main
import FortranDocs.Proofs.Text.Utf8
import FortranDocs.Proofs.Program
import FortranDocs.Proofs.Keyword
import FortranDocs.Proofs.Line
import FortranDocs.Proofs.Literal
import FortranDocs.Proofs.Split
import FortranDocs.Proofs.Slices
import FortranDocs.Proofs.Interior
import FortranDocs.Proofs.Tree.Canonical
import FortranDocs.Proofs.Tree.Reading
import FortranDocs.Proofs.Tree.RoundTrip
import FortranDocs.Proofs.Tree.Frames
import FortranDocs.Proofs.Tree.Numbering
import FortranDocs.Proofs.Tree.Redocumenting
import FortranDocs.Proofs.Tree.Histories
import FortranDocs.Proofs.Tree.Edited
import FortranDocs.Proofs.SecondRun
import FortranDocs.Proofs.Tree.Visiting
import FortranDocs.Proofs.Pass.Course
import FortranDocs.Proofs.Pass.Requests
import FortranDocs.Proofs.Pass.Code
import FortranDocs.Proofs.Tree.Isolation
import FortranDocs.Proofs.Run.FileMap
import FortranDocs.Proofs.Run.Preparation
import FortranDocs.Proofs.Run.Sweep
import FortranDocs.Proofs.Run.Wholeness
import FortranDocs.Proofs.Run.Modes
import FortranDocs.Proofs.Run.Kept
import FortranDocs.Proofs.Tree.Cutting
import FortranDocs.Proofs.Tree.Concatenation
import FortranDocs.Proofs.Tree.Outline
import FortranDocs.Proofs.Tree.Alike
import FortranDocs.Proofs.Tree.Returns
import FortranDocs.Proofs.Tree.ReadBack
import FortranDocs.Proofs.Pass.Lockstep
import FortranDocs.Proofs.Pass.LineEndings
import FortranDocs.Proofs.Tree.Unended
import FortranDocs.Proofs.Tree.Extents
import FortranDocs.Proofs.Tree.Nesting
import FortranDocs.Proofs.LetterCase
import FortranDocs.Proofs.Tree.LetterCase
import FortranDocs.Proofs.Pass.Unanswered
import FortranDocs.Proofs.Path.Components
import FortranDocs.Proofs.Path.Parts
import FortranDocs.Proofs.FileTree
import FortranDocs.Proofs.Inputs.Wildcards
import FortranDocs.Proofs.Inputs.Discovery
import FortranDocs.Proofs.FileTree.Changes
import FortranDocs.Proofs.FileTree.Patterns
import FortranDocs.Proofs.FileTree.Matching
import FortranDocs.Proofs.FileTree.Search
import FortranDocs.Proofs.Inputs.Placement
import FortranDocs.Proofs.Inputs.Containment
import FortranDocs.Proofs.Inputs.Layout
import FortranDocs.Proofs.Inputs.Rearranged
import FortranDocs.Proofs.Inputs.Clashes
