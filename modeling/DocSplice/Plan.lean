import DocSplice.Block
import DocSplice.Splice

/-!
# Plans

A plan is the computed outcome of an update, before anything is written: the document as it was read,
the block that shows the examples, and the splice of the two.
-/
namespace DocSplice

/-- A computed update. -/
structure Plan where
  document : Text
  block : Text
  exampleLines : Nat
  splice : Splice
deriving DecidableEq, Repr

namespace Plan

/-- The plan that puts the examples into the document. -/
def make (p : Policy) (document examples : Text) : Plan :=
  let block := Block.render examples
  { document := document
    block := block
    exampleLines := examples.lines.length
    splice := Splice.make p document block }

/-- The document after the update. -/
def updated (plan : Plan) : Text := plan.splice.content

/-- Whether the markers were found. -/
def matched (plan : Plan) : Bool := plan.splice.matched

/-- Whether the update would change the document. -/
def isStale (plan : Plan) : Bool := plan.document != plan.updated

@[simp] theorem document_make (p : Policy) (document examples : Text) :
    (make p document examples).document = document := rfl

@[simp] theorem updated_make (p : Policy) (document examples : Text) :
    (make p document examples).updated = (Splice.make p document (Block.render examples)).content := rfl

@[simp] theorem matched_make (p : Policy) (document examples : Text) :
    (make p document examples).matched = (p.sections? document).isSome :=
  Splice.matched_make ..

end Plan
end DocSplice
