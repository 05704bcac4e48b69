/-!
# Paths

A path is a text in which slashes separate names. It keeps the spelling
it was given – a message shows `./Sources//App` as it was written – but
is compared and ordered by its **components**: the root, a leading dot,
the steps to a parent, and names. Repeated slashes and dots elsewhere
are no components.

A path is cut at its slashes into **segments**, some of which are idle. The
steps to a parent are components and are not taken back against the name
before them: where they lead is for a disk to say, as the name may be missing.
-/

namespace SwiftStyle

/-- **A path**, as it is spelled. -/
structure Path where
  /-- The spelling. -/
  text : String
deriving DecidableEq, Repr, Inhabited

namespace Path

/-- The pieces of a text between slashes; there is at least one. -/
def segments (text : List Char) : List (List Char) :=
  match text with
  | [] => [[]]
  | c :: rest =>
    if c = '/' then [] :: segments rest
    else
      match segments rest with
      | [] => [[c]]
      | first :: others => (c :: first) :: others

/-- Segments with slashes between them. -/
def joinSegments : List (List Char) → List Char
  | [] => []
  | [segment] => segment
  | segment :: rest => segment ++ '/' :: joinSegments rest

/-- **A component of a path.** -/
inductive Component where
  /-- The root directory. -/
  | root
  /-- A dot at the front of a relative path. -/
  | current
  /-- Two dots: the parent directory. -/
  | parent
  /-- A name. -/
  | name (text : String)
deriving DecidableEq, Repr, Inhabited

/-- The place of a component among components of other sorts. -/
def Component.rank : Component → Nat
  | root => 0
  | current => 1
  | parent => 2
  | name _ => 3

/-- The order of components: by sort, and among names by code points. -/
def Component.compare : Component → Component → Ordering
  | name a, name b => Ord.compare a b
  | a, b => Ord.compare a.rank b.rank

/-- Whether a segment within a path is no component. -/
def isIdle (segment : List Char) : Bool :=
  segment == [] || segment == ['.']

/-- The component that a segment within a path stands for. -/
def componentOf (segment : List Char) : Component :=
  if segment = ['.', '.'] then .parent else .name (String.ofList segment)

/-- Whether a path starts at the root. -/
def isAbsolute (p : Path) : Bool :=
  p.text.toList.head? == some '/'

/-- **The components of a path.** -/
def components (p : Path) : List Component :=
  let all := segments p.text.toList
  let body := (all.filter fun s => !isIdle s).map componentOf
  if p.isAbsolute then .root :: body
  else if all.head? = some ['.'] then .current :: body
  else body

/-- The order of paths: that of their components, one by one. -/
def compareComponents : List Component → List Component → Ordering
  | [], [] => .eq
  | [], _ :: _ => .lt
  | _ :: _, [] => .gt
  | a :: as, b :: bs => (a.compare b).then (compareComponents as bs)

/-- The order of paths. -/
def compare (p q : Path) : Ordering :=
  compareComponents p.components q.components

/-- Whether a path comes before another or is the same. -/
def le (p q : Path) : Bool :=
  (p.compare q).isLE

/-- Whether two spellings have the same components. -/
def same (p q : Path) : Bool :=
  p.compare q == .eq

/-- **A path below another.** An absolute path replaces the base; any
other is written after it, with a slash between them if the base has no
slash at its end. -/
def join (base : Path) (more : String) : Path :=
  if (⟨more⟩ : Path).isAbsolute then ⟨more⟩
  else if base.text.toList.getLast?.all (· == '/') then
    ⟨base.text ++ more⟩
  else ⟨base.text ++ "/" ++ more⟩

/-- The segments up to the last component. -/
def dropIdle (body : List (List Char)) : List (List Char) :=
  (body.reverse.dropWhile isIdle).reverse

/-- **The path without its last component**; the root and the empty path
have none to lose. -/
def parent? (p : Path) : Option Path :=
  let text := p.text.toList
  if p.isAbsolute then
    match dropIdle (segments text.tail) with
    | [] => none
    | body => some ⟨String.ofList
        ('/' :: joinSegments (dropIdle body.dropLast))⟩
  else
    match segments text with
    | ['.'] :: body =>
      match dropIdle body with
      | [] => some ⟨""⟩
      | body => some ⟨String.ofList
          (joinSegments (['.'] :: dropIdle body.dropLast))⟩
    | body =>
      match dropIdle body with
      | [] => none
      | body => some ⟨String.ofList
          (joinSegments (dropIdle body.dropLast))⟩

/-- A path and at most `n` of the paths above it. -/
def ancestorsUpTo : Nat → Path → List Path
  | 0, p => [p]
  | n + 1, p =>
    match p.parent? with
    | some q => p :: ancestorsUpTo n q
    | none => [p]

/-- **A path and all the paths above it**, the nearest first. -/
def ancestors (p : Path) : List Path :=
  ancestorsUpTo (p.text.length + 1) p

end Path
end SwiftStyle
