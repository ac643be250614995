/-
# Marks on nodes

A rewrite keeps some nodes of an expression and makes others, and the expression that
it puts in the place of a parameter brings its own nodes along. Marks tell whether a
node of one expression is the very node of another: nodes with one mark are one node,
and a node without a mark has just been made.

The marks of an expression form a tree of its shape. Each rewrite has a function that
gives the marks of its result. A node whose parts are all kept is kept itself, unless
the rewrite changes that node; a constant that the rewrite works out is a new node.

A node is equal to itself whatever it holds, so with marks an expression with the
constant NaN in it is equal to itself: `Expr.beqMarked`.

Key definitions: `Marks`, `Marks.isNode`, `Marks.keep`, `Marks.fill`, `Marks.ofExpr`,
`Expr.beqMarked`, `Expr.foldMarks`, `Expr.substMarks`, `Expr.negateMarks`.
-/
import SeqQuery.Expr.Fold
import SeqQuery.Expr.Substitution

namespace SeqQuery

/-- The mark of a node and the marks of its parts: of the operands, or of the arguments
and then of the bindings. -/
inductive Marks where
  | node (mark : Option Nat) (parts : List Marks)
deriving Inhabited

namespace Marks

/-- The mark of the node itself. -/
def mark : Marks → Option Nat
  | node mark _ => mark

/-- The marks of the parts of a node. -/
def parts : Marks → List Marks
  | node _ parts => parts

/-- A node without parts that has just been made. -/
def new : Marks :=
  node none []

/-- The marks of a part by its position. -/
def part (m : Marks) (position : Nat) : Marks :=
  m.parts[position]?.getD new

/-- Whether two nodes are one node. A node without a mark is no other node. -/
def isNode (m n : Marks) : Bool :=
  m.mark.isSome && m.mark == n.mark

/-- The marks of a node whose parts have been rewritten: the node is kept when each
part is. -/
def keep (m : Marks) (parts : List Marks) : Marks :=
  if (List.zipWith isNode parts m.parts).all id then m else node none parts

mutual

/-- Gives a mark to every node that has none, counting from `next`, and the first mark
that is still free. -/
def fill (next : Nat) : Marks → Marks × Nat
  | node (some mark) parts =>
    let (parts, next) := fillAll next parts
    (node (some mark) parts, next)
  | node none parts =>
    let (parts, free) := fillAll (next + 1) parts
    (node (some next) parts, free)

/-- Gives a mark to every node that has none in any tree of a list. -/
def fillAll (next : Nat) : List Marks → List Marks × Nat
  | [] => ([], next)
  | m :: ms =>
    let (first, next) := fill next m
    let (rest, next) := fillAll next ms
    (first :: rest, next)

end

mutual

/-- The marks of an expression that has just been made. -/
def ofExpr : Expr → Marks
  | .const _ _ => new
  | .param _ => new
  | .member e _ _ => node none [ofExpr e]
  | .unary _ e _ => node none [ofExpr e]
  | .binary _ l r _ => node none [ofExpr l, ofExpr r]
  | .cond t a b _ => node none [ofExpr t, ofExpr a, ofExpr b]
  | .call _ es _ => node none (ofAll es)
  | .construct _ es bs => node none (ofAll es ++ ofBindings bs)

/-- The marks of expressions that have just been made. -/
def ofAll : List Expr → List Marks
  | [] => []
  | e :: es => ofExpr e :: ofAll es

/-- The marks of named expressions that have just been made. -/
def ofBindings : List (String × Expr) → List Marks
  | [] => []
  | (_, e) :: bs => ofExpr e :: ofBindings bs

end

end Marks

namespace Expr

/-! ### Equality -/

mutual

/-- Whether two marked expressions are equal: they are one node, or nodes of one kind
with equal parts. -/
def beqMarked : Expr → Marks → Expr → Marks → Bool
  | .const v s, m, .const w t, n => m.isNode n || (v == w && s == t)
  | .param p, m, .param q, n => m.isNode n || p == q
  | .member e k s, m, .member f l t, n =>
    m.isNode n || (beqMarked e (m.part 0) f (n.part 0) && k == l && s == t)
  | .unary o e s, m, .unary p f t, n =>
    m.isNode n || (o == p && beqMarked e (m.part 0) f (n.part 0) && s == t)
  | .binary o e e' s, m, .binary p f f' t, n =>
    m.isNode n || (o == p && beqMarked e (m.part 0) f (n.part 0) &&
      beqMarked e' (m.part 1) f' (n.part 1) && s == t)
  | .cond e e' e'' s, m, .cond f f' f'' t, n =>
    m.isNode n || (beqMarked e (m.part 0) f (n.part 0) &&
      beqMarked e' (m.part 1) f' (n.part 1) && beqMarked e'' (m.part 2) f'' (n.part 2) && s == t)
  | .call o es s, m, .call p fs t, n =>
    m.isNode n || (o == p && beqAllMarked es m.parts fs n.parts && s == t)
  | .construct r es bs, m, .construct s fs cs, n =>
    m.isNode n || (r == s && beqAllMarked es m.parts fs n.parts &&
      beqBindingsMarked bs (m.parts.drop es.length) cs (n.parts.drop fs.length))
  | _, _, _, _ => false

/-- Whether two lists of marked expressions are equal one by one. -/
def beqAllMarked : List Expr → List Marks → List Expr → List Marks → Bool
  | [], _, [], _ => true
  | e :: es, ms, f :: fs, ns =>
    beqMarked e (ms.headD .new) f (ns.headD .new) && beqAllMarked es ms.tail fs ns.tail
  | _, _, _, _ => false

/-- Whether two lists of marked and named expressions are equal one by one. -/
def beqBindingsMarked :
    List (String × Expr) → List Marks → List (String × Expr) → List Marks → Bool
  | [], _, [], _ => true
  | (k, e) :: bs, ms, (l, f) :: cs, ns =>
    k == l && beqMarked e (ms.headD .new) f (ns.headD .new) &&
      beqBindingsMarked bs ms.tail cs ns.tail
  | _, _, _, _ => false

end

/-! ### Folding -/

/-- The marks of a regrouped chain: it has the operand beside the inner constant, and a
new constant. -/
def regroupMarks (inner : Expr) (m : Marks) : Marks :=
  match inner with
  | .binary _ left _ _ => .node none [m.part (if left.isConstant then 1 else 0), .new]
  | _ => .new

/-- The marks of what a node is simplified to, other than by evaluating it. -/
def simplifyMarks (e : Expr) (m : Marks) : Marks :=
  match e with
  | .binary (.connective op) left right _ =>
    match keptSide? op left right with
    | some .left => m.part 0
    | some .right => m.part 1
    | none => m
  | .binary op left right _ =>
    if e.simplify?.isNone then m
    else if (regroupOnto? op left right).isSome then regroupMarks right (m.part 1)
    else regroupMarks left (m.part 0)
  | _ => m

/-- The marks of what folding makes of a node whose parts have been folded. -/
def finishMarks (e : Expr) (m : Marks) : Marks :=
  if (e.simplify?.getD e).evaluate?.isSome then .new else simplifyMarks e m

mutual

/-- The marks of a folded expression. -/
def foldMarks : Expr → Marks → Marks
  | .const _ _, m => m
  | .param _, m => m
  | .member e name ty, m =>
    finishMarks (.member (fold e) name ty) (m.keep [foldMarks e (m.part 0)])
  | .unary op e ty, m =>
    finishMarks (.unary op (fold e) ty) (m.keep [foldMarks e (m.part 0)])
  | .binary op l r ty, m =>
    finishMarks (.binary op (fold l) (fold r) ty)
      (m.keep [foldMarks l (m.part 0), foldMarks r (m.part 1)])
  | .cond t a b ty, m =>
    finishMarks (.cond (fold t) (fold a) (fold b) ty)
      (m.keep [foldMarks t (m.part 0), foldMarks a (m.part 1), foldMarks b (m.part 2)])
  | .call method es ty, m =>
    finishMarks (.call method (foldAll es) ty) (m.keep (foldAllMarks es m.parts))
  | .construct _ es bs, m =>
    m.keep (foldAllMarks es m.parts ++ foldBindingsMarks bs (m.parts.drop es.length))

/-- The marks of the folded expressions of a list. -/
def foldAllMarks : List Expr → List Marks → List Marks
  | [], _ => []
  | e :: es, ms => foldMarks e (ms.headD .new) :: foldAllMarks es ms.tail

/-- The marks of the folded named expressions of a list. -/
def foldBindingsMarks : List (String × Expr) → List Marks → List Marks
  | [], _ => []
  | (_, e) :: bs, ms => foldMarks e (ms.headD .new) :: foldBindingsMarks bs ms.tail

end

/-! ### Substitution -/

/-- The marks of the expression that sets a field of a new record. A zero is a new
constant, and so is a constant that takes the field's type. -/
def initMarks (record : RecordTy) (args : List Expr) (bindings : List (String × Expr))
    (name : String) (m : Marks) : Marks :=
  match record.fields.indexOf? name, record.fields.find? name with
  | some index, some field =>
    let position :=
      if index < args.length then index
      else args.length + bindings.findIdx (·.1 == name)
    match (args ++ bindings.map (·.2))[position]? with
    | none => .new
    | some (.const _ ty) => if ty = field then m.part position else .new
    | some _ => m.part position
  | _, _ => .new

/-- The marks of a member of a rewritten target. A member that is read from a new record
is what sets the field. -/
def readMarks (target : Except ExprError Expr) (name : String) (m targetMarks : Marks) : Marks :=
  match target with
  | .ok (.construct record args bindings) => initMarks record args bindings name targetMarks
  | _ => m.keep [targetMarks]

mutual

/-- The marks of an expression with an image in the place of the parameter that has an
identity. -/
def substMarks (id : Nat) (image : Expr) (imageMarks : Marks) : Expr → Marks → Marks
  | .const _ _, m => m
  | .param p, m => if p.id = id then imageMarks else m
  | .member e name _, m =>
    readMarks (subst id image e) name m (substMarks id image imageMarks e (m.part 0))
  | .unary _ e _, m => m.keep [substMarks id image imageMarks e (m.part 0)]
  | .binary _ l r _, m =>
    m.keep [substMarks id image imageMarks l (m.part 0),
      substMarks id image imageMarks r (m.part 1)]
  | .cond t a b _, m =>
    m.keep [substMarks id image imageMarks t (m.part 0),
      substMarks id image imageMarks a (m.part 1), substMarks id image imageMarks b (m.part 2)]
  | .call _ es _, m => m.keep (substAllMarks id image imageMarks es m.parts)
  | .construct _ es bs, m =>
    m.keep (substAllMarks id image imageMarks es m.parts ++
      substBindingsMarks id image imageMarks bs (m.parts.drop es.length))

/-- The marks of the expressions of a list with an image in the place of a parameter. -/
def substAllMarks (id : Nat) (image : Expr) (imageMarks : Marks) :
    List Expr → List Marks → List Marks
  | [], _ => []
  | e :: es, ms =>
    substMarks id image imageMarks e (ms.headD .new) ::
      substAllMarks id image imageMarks es ms.tail

/-- The marks of the named expressions of a list with an image in the place of a
parameter. -/
def substBindingsMarks (id : Nat) (image : Expr) (imageMarks : Marks) :
    List (String × Expr) → List Marks → List Marks
  | [], _ => []
  | (_, e) :: bs, ms =>
    substMarks id image imageMarks e (ms.headD .new) ::
      substBindingsMarks id image imageMarks bs ms.tail

end

/-! ### Negation -/

/-- The marks of the logical negation of an expression. -/
def negateMarks (e : Expr) (m : Marks) : Marks :=
  match e with
  | .unary .not _ _ => m.part 0
  | _ => .node none [m]

end Expr
end SeqQuery
