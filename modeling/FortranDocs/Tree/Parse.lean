import FortranDocs.Split
import FortranDocs.Tree.Basic

/-!
# Reading a source into a tree

The first line that opens a block cuts a run of lines into opaque text, the
construct and the rest, which is read in the same way.  A run of lines that opens
nothing is opaque text.

`Node.parseAll` is defined by well-founded recursion on the number of lines: a
body is shorter than its block, and what follows a block is shorter than the
whole.  The nesting depth is counted besides, and a reading that passes the limit
fails.
-/

namespace FortranDocs

/-- The inner lines of a block, told apart by their place in the construct. -/
structure Interior where
  /-- The lines that continue the header. -/
  continuation : List Line
  /-- The comment lines directly behind the header. -/
  doc : List Line
  /-- All further lines. -/
  body : List Line
  deriving DecidableEq, Repr

namespace Interior

/-- Cut off the lines that continue a statement: each line is one if the line in
front of it is continued. -/
def continued (previous : Line) : List Line -> List Line × List Line
  | [] => ([], [])
  | line :: rest =>
      if previous.isContinued then
        let (continuation, others) := continued line rest
        (line :: continuation, others)
      else
        ([], line :: rest)

/-- Tell the inner lines of a block apart. -/
def ofLines (opener : Line) (inner : List Line) : Interior :=
  let (continuation, others) := continued opener inner
  { continuation
    doc := others.takeWhile Line.isDocumentation
    body := others.dropWhile Line.isDocumentation }

theorem continued_append (previous : Line) (lines : List Line) :
    (continued previous lines).1 ++ (continued previous lines).2 = lines := by
  induction lines generalizing previous with
  | nil => rfl
  | cons line rest inductionHypothesis =>
      simp only [continued]
      split
      · simp [inductionHypothesis line]
      · rfl

/-- No inner line is lost. -/
theorem ofLines_append (opener : Line) (inner : List Line) :
    (ofLines opener inner).continuation ++ (ofLines opener inner).doc ++
      (ofLines opener inner).body = inner := by
  simp [ofLines, List.append_assoc, List.takeWhile_append_dropWhile, continued_append]

theorem length_body_le (opener : Line) (inner : List Line) :
    (ofLines opener inner).body.length ≤ inner.length := by
  have whole := congrArg List.length (ofLines_append opener inner)
  simp only [List.length_append] at whole
  omega

end Interior

namespace Split

/-- The inner lines of the block, told apart. -/
def interior (split : Split) : Interior :=
  Interior.ofLines split.opener split.inner

/-- What the block at a given line holds around its body. -/
def frame (split : Split) (kind : Kind) (line : Nat) : Frame where
  kind
  line
  opener := split.opener
  continuation := split.interior.continuation
  doc := split.interior.doc
  closing := split.closing
  indent := Line.indentOf split.interior.body

/-- The number of lines in front of the body. -/
def bodyStart (split : Split) : Nat :=
  split.before.length + 1 + split.interior.continuation.length +
    split.interior.doc.length

/-- The number of lines in front of those behind the block. -/
def afterStart (split : Split) : Nat :=
  split.before.length + split.block.length

theorem length_body_lt (split : Split) :
    split.interior.body.length < split.lines.length := by
  have shorter := Interior.length_body_le split.opener split.inner
  simp only [interior, lines, block, List.length_append, List.length_cons]
  omega

theorem length_after_lt (split : Split) : split.after.length < split.lines.length := by
  simp only [lines, block, List.length_append, List.length_cons]
  omega

end Split

namespace Node

/-- The first line that opens a block, and the kind it opens. -/
def firstOpener (lines : List Line) : Option (Nat × Kind) :=
  match lines with
  | [] => none
  | line :: rest =>
      match Kind.openedBy line with
      | some kind => some (0, kind)
      | none => (firstOpener rest).map fun (start, kind) => (start + 1, kind)

/-- Opaque text, if there is any. -/
def textOf : List Line -> List Node
  | [] => []
  | lines => [.text lines]

/-- The deepest nesting that is read. -/
def maxDepth : Nat := 256

/-- Read lines into nodes.  The offset is the number of lines of the source in
front of these, by which errors and constructs are numbered; the depth is the number
of constructs around these lines. -/
def parseAll (lines : List Line) (offset depth : Nat) : Except ParseError (List Node) :=
  if maxDepth < depth then
    .error (.nestingTooDeep maxDepth)
  else
    match firstOpener lines with
    | none => .ok [.text lines]
    | some (start, kind) =>
        match _cut : Split.around kind start lines with
        | .error error => .error (error.shift offset)
        | .ok split =>
            let body :=
              if split.interior.body.isEmpty then
                .ok []
              else
                parseAll split.interior.body (offset + split.bodyStart) (depth + 1)
            match body with
            | .error error => .error error
            | .ok body =>
                let rest :=
                  if split.after.isEmpty then
                    .ok []
                  else
                    parseAll split.after (offset + split.afterStart) depth
                match rest with
                | .error error => .error error
                | .ok rest =>
                    let frame := split.frame kind (offset + start + 1)
                    .ok (textOf split.before ++ .construct frame body :: rest)
termination_by lines.length
decreasing_by
  · exact Split.lines_around _cut ▸ split.length_body_lt
  · exact Split.lines_around _cut ▸ split.length_after_lt

end Node

namespace Tree

/-- Read a source into a tree. -/
def parse (source : Text) : Except ParseError Tree :=
  (Node.parseAll (Text.splitLines source) 0 0).map fun nodes => { nodes }

end Tree
end FortranDocs
