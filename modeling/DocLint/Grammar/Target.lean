import DocLint.Grammar.Tree

/-!
Expressions that may stand on the left of an assignment, be deleted or be annotated.
-/

set_option autoImplicit false

namespace DocLint.Grammar

def Expr.isPlace : Expr → Bool
  | .name _ | .attribute _ _ | .subscript _ _ => true
  | _ => false

mutual

def Expr.isTarget : Expr → Bool
  | .name _ | .attribute _ _ | .subscript _ _ => true
  | .starred e => e.isTarget
  | .tuple items => areTargets items
  | .list items => areTargets items
  | _ => false

def areTargets : List Expr → Bool
  | [] => true
  | e :: es => e.isTarget && areTargets es

end

mutual

def Expr.isDeletable : Expr → Bool
  | .name _ | .attribute _ _ | .subscript _ _ => true
  | .tuple items => areDeletable items
  | .list items => areDeletable items
  | _ => false

def areDeletable : List Expr → Bool
  | [] => true
  | e :: es => e.isDeletable && areDeletable es

end

end DocLint.Grammar
