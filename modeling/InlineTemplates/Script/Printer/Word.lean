import InlineTemplates.Script.Tree

/-! # Where code starts and ends like a word

Two words need a blank between them even in dense code. -/

namespace InlineTemplates.Script.Tree

/-- Whether the code of an expression or a pattern starts like a word. -/
def startsWord : Tree → Bool
  | .node (.expr k) _ ps => match k, ps with
    | .this, _ | .function, _ | .classExpr, _ | .name _, _ | .number _ _, _ | .bigInt _ _, _
    | .bool _, _ | .null, _ | .yield _, _ | .new _, _ | .newTarget, _ | .importMeta, _ | .await, _
    | .superMember, _ | .superIndex, _ | .invalid, _ => true
    | .unary op, _ => op.isWord
    | .update _ prefixed, [e] => !prefixed && startsWord e
    | .arrow async _, [params, _, _, _] => async || startsWord params
    | .sequence, e :: _ | .binary _, e :: _ | .assign _, e :: _ | .member, e :: _ | .index, e :: _
    | .conditional, e :: _ | .call, e :: _ | .tagged, e :: _ | .nonNull, [e] | .asType, e :: _
    | .constAssertion, [e] | .instantiation, e :: _ | .satisfies, e :: _ | .chain _, [e]
    | .chainCall, e :: _ => startsWord e
    | _, _ => false
  | .node (.pat (.name _ _)) _ _ => true
  | .node (.pat .default) _ (p :: _) => startsWord p
  | .node (.part .super) _ _ | .node (.part (.importCallee _)) _ _ => true
  | .node .list _ [p] => startsWord p
  | _ => false

/-- Whether the code of an expression, a pattern or a loop's head ends like a word. -/
def endsWord : Tree → Bool
  | .node (.expr k) _ _ => match k with
    | .array | .object | .string _ _ | .paren | .index => false
    | _ => true
  | .node (.pat k) _ ps => match k, ps with
    | .array _, _ | .object _, _ => false
    | .rest, p :: _ => endsWord p
    | .default, [_, e] => endsWord e
    | _, _ => true
  | .node (.stmt (.var _ _)) _ ps | .node (.stmt (.using _)) _ ps => endsWordLast ps
  | .node (.part (.declarator _)) _ [p, e] => if e.isAbsent then endsWord p else endsWord e
  | _ => true
where
  endsWordLast : List Tree → Bool
    | [] => true
    | [t] => endsWord t
    | _ :: t :: ts => endsWordLast (t :: ts)

/-- Whether a statement starts like a word. -/
def stmtStartsWord : Tree → Bool
  | .node (.stmt .expr) _ (e :: _) => startsWord e
  | .node (.stmt .block) _ _ | .node (.stmt .empty) _ _ => false
  | _ => true

/-- Whether a blank is needed between a binary operator and its right operand, so that the two are
not read as another operator or as a comment. -/
def needsBlankAfter (op : BinaryOp) : Tree → Bool
  | .node (.expr (.update increment true)) _ _ =>
    (op == .sub && !increment) || (op == .add && increment)
  | .node (.expr (.unary u)) _ [e] =>
    let comment := u == .not && (op == .lt || op == .shiftLeft) && match e.kind with
      | .expr (.update increment _) => !increment
      | _ => false
    comment || (op == .sub && u == .minus) || (op == .add && u == .plus)
  | .node (.expr (.binary _)) _ (left :: _) => needsBlankAfter op left
  | _ => false

/-- Whether a blank is needed between a unary operator and its operand. -/
def needsBlankUnder (op : UnaryOp) (t : Tree) : Bool :=
  if op.isWord then t.startsWord else match t.kind with
    | .expr (.update increment true) => (op == .plus && increment) || (op == .minus && !increment)
    | .expr (.unary u) => (op == .plus || op == .minus) && u == op
    | _ => false

end InlineTemplates.Script.Tree
