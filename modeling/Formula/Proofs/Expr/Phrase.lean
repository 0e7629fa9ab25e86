/-
The grammar of expressions, as a relation between a kind of phrase, a
stretch of symbols and the tree it stands for. The relation knows nothing
of readers: it says what an expression is, not how one is found.

    logical        = negation { (AND | OR | XOR) negation }
    negation       = NOT negation | relational
    relational     = additive { (= | <> | > | < | >= | <=) additive }
    additive       = multiplicative { (+ | - | LIKE | NOT LIKE | NOT IN)
                       multiplicative | IS NULL | IS NOT NULL }
    multiplicative = power { (* | / | %) power }
    power          = primary { (^ | IN | << | >>) primary }
    primary        = (+ | -) primary | indexed
    indexed        = atom { [ logical ] }
    atom           = constant | NULL | name | name ( [list] ) | ( list )
    list           = logical { , logical }

What repeats groups to the left, so each repetition is a rule whose phrase
stands at its own left end.
-/
import Formula.Expr.Grammar
import Formula.Proofs.Expr.Traversal

namespace Formula

namespace Expr

-- ================================================================ phrases

/-- The levels of operators between operands, the loosest first. -/
inductive Level where
  | logical
  | relational
  | additive
  | multiplicative
  | power
  deriving DecidableEq

/-- What a stretch of symbols can be. -/
inductive Phrase where
  /-- Operands of one level, joined. -/
  | chain (level : Level)
  /-- A comparison, or the negation of one. -/
  | negation
  /-- An atom with its indexes, perhaps behind signs. -/
  | primary
  /-- An atom with its indexes. -/
  | indexed
  deriving DecidableEq

namespace Level

/-- What the operands of a level are. -/
def operand : Level → Phrase
  | logical => .negation
  | relational => .chain .additive
  | additive => .chain .multiplicative
  | multiplicative => .chain .power
  | power => .primary

/-- The operators of a level, as the symbols that spell them. -/
def table : Level → List (List Part × Joint)
  | logical => [
    ([.and], .between (.plain .and)),
    ([.or], .between (.plain .or)),
    ([.xor], .between (.plain .xor))]
  | relational => [
    ([.equal], .between (.plain .equal)),
    ([.notEqual], .between (.plain .notEqual)),
    ([.more], .between (.plain .more)),
    ([.less], .between (.plain .less)),
    ([.moreEqual], .between (.plain .moreEqual)),
    ([.lessEqual], .between (.plain .lessEqual))]
  | additive => [
    ([.plus], .between (.plain .add)),
    ([.minus], .between (.plain .subtract)),
    ([.like], .between (.plain .like)),
    ([.not, .like], .between .notLike),
    ([.not, .isIn], .between .notIn),
    ([.is, .null], .behind (.plain .isNull)),
    ([.is, .not, .null], .behind .isNotNull)]
  | multiplicative => [
    ([.star], .between (.plain .multiply)),
    ([.slash], .between (.plain .divide)),
    ([.percent], .between (.plain .remainder))]
  | power => [
    ([.power], .between (.plain .power)),
    ([.isIn], .between (.plain .isIn)),
    ([.shiftLeft], .between (.plain .shiftLeft)),
    ([.shiftRight], .between (.plain .shiftRight))]

/-- Whether symbols spell an operator of a level. -/
def Spells (k : Level) (ms : List Symbol) (j : Joint) : Prop :=
  (ms.map Symbol.part, j) ∈ k.table

end Level

-- ============================================================ derivations

/-- Stretches of symbols, at least one, with a comma between each two. -/
inductive Listed : List (List Symbol) → List Symbol → Prop
  | one (ss : List Symbol) : Listed [ss] ss
  | more {ss rest : List Symbol} {sss : List (List Symbol)} {comma : Symbol} :
      comma.part = .comma → Listed sss rest →
      Listed (ss :: sss) (ss ++ comma :: rest)

/-- Whether a stretch of symbols is a phrase, and the tree it stands for.
Operators, names and opening parentheses give the places of what they
build. -/
inductive Derives : Phrase → List Symbol → Tree → Prop
  /-- An operand of a level is a chain of the level. -/
  | operand {k : Level} {ss : List Symbol} {t : Tree} :
      Derives k.operand ss t → Derives (.chain k) ss t
  /-- A chain goes on with an operator and an operand. -/
  | between {k : Level} {ls ms rs : List Symbol} {s : Symbol}
      {op : Dyadic} {l r : Tree} :
      Derives (.chain k) ls l → k.Spells (s :: ms) (.between op) →
      Derives k.operand rs r →
      Derives (.chain k) (ls ++ s :: (ms ++ rs))
        (.dyadic op l r s.value.text s.place)
  /-- A chain goes on with an operator that stands behind it. -/
  | behind {k : Level} {ls ms : List Symbol} {s : Symbol}
      {op : Monadic} {l : Tree} :
      Derives (.chain k) ls l → k.Spells (s :: ms) (.behind op) →
      Derives (.chain k) (ls ++ s :: ms)
        (.monadic op l s.value.text s.place)
  | comparison {ss : List Symbol} {t : Tree} :
      Derives (.chain .relational) ss t → Derives .negation ss t
  | not {s : Symbol} {ss : List Symbol} {t : Tree} :
      s.part = .not → Derives .negation ss t →
      Derives .negation (s :: ss)
        (.monadic (.plain .not) t s.value.text s.place)
  | unsigned {ss : List Symbol} {t : Tree} :
      Derives .indexed ss t → Derives .primary ss t
  | plus {s : Symbol} {ss : List Symbol} {t : Tree} :
      s.part = .plus → Derives .primary ss t →
      Derives .primary (s :: ss) (.plus t)
  | minus {s : Symbol} {ss : List Symbol} {t : Tree} :
      s.part = .minus → Derives .primary ss t →
      Derives .primary (s :: ss)
        (.monadic (.plain .negative) t s.value.text s.place)
  | index {bs is : List Symbol} {s e : Symbol} {b i : Tree} :
      Derives .indexed bs b → s.part = .leftBracket →
      Derives (.chain .logical) is i → e.part = .rightBracket →
      Derives .indexed (bs ++ s :: (is ++ [e]))
        (.dyadic (.plain .element) b i s.value.text s.place)
  | constant {s : Symbol} :
      s.part = .constant → Derives .indexed [s] (.constant s.value s.place)
  | null {s : Symbol} :
      s.part = .null → Derives .indexed [s] (.constant .null s.place)
  | variable {s : Symbol} :
      s.part = .variable →
      Derives .indexed [s] (.variable s.value.text s.place)
  /-- A call without arguments. -/
  | thunk {s o e : Symbol} :
      s.part = .variable → o.part = .leftParen → e.part = .rightParen →
      Derives .indexed [s, o, e] (.call s.value.text [] s.place)
  | call {s o e : Symbol} {ss : List Symbol}
      {items : List (List Symbol × Tree)} :
      s.part = .variable → o.part = .leftParen →
      Listed (items.map Prod.fst) ss →
      (∀ i ∈ items, Derives (.chain .logical) i.1 i.2) →
      e.part = .rightParen →
      Derives .indexed (s :: o :: (ss ++ [e]))
        (.call s.value.text (items.map Prod.snd) s.place)
  | group {o e : Symbol} {ss : List Symbol} {t : Tree} :
      o.part = .leftParen → Derives (.chain .logical) ss t →
      e.part = .rightParen →
      Derives .indexed (o :: (ss ++ [e])) (.group t)
  /-- Several expressions in parentheses. -/
  | array {o e : Symbol} {ss : List Symbol}
      {items : List (List Symbol × Tree)} :
      o.part = .leftParen → Listed (items.map Prod.fst) ss →
      2 ≤ items.length →
      (∀ i ∈ items, Derives (.chain .logical) i.1 i.2) →
      e.part = .rightParen →
      Derives .indexed (o :: (ss ++ [e]))
        (.array (items.map Prod.snd) o.place)

/-- Whether symbols are a whole expression, and the tree of it. -/
def Sentence (ss : List Symbol) (t : Tree) : Prop :=
  Derives (.chain .logical) ss t

/-- An atom with its indexes is a chain of every level. -/
theorem Derives.chain {ss : List Symbol} {t : Tree} (h : Derives .indexed ss t) (k : Level) :
    Derives (.chain k) ss t := by
  have hpower : Derives (.chain .power) ss t := .operand (.unsigned h)
  have hmultiplicative : Derives (.chain .multiplicative) ss t := .operand hpower
  have hadditive : Derives (.chain .additive) ss t := .operand hmultiplicative
  have hrelational : Derives (.chain .relational) ss t := .operand hadditive
  cases k with
  | logical => exact .operand (.comparison hrelational)
  | relational => exact hrelational
  | additive => exact hadditive
  | multiplicative => exact hmultiplicative
  | power => exact hpower

/-- An atom is an expression. -/
theorem Derives.sentence {ss : List Symbol} {t : Tree} (h : Derives .indexed ss t) :
    Sentence ss t :=
  h.chain .logical

end Expr

end Formula
