import Mathlib.Data.Matrix.Mul
import Mira.Core.Contracts

/-!
Coordinate transforms between spaces and the chains that are resolved from a table of them. The
numbers are exact, so that all of them are finite; a point that a matrix sends to infinity is no
point.
-/

namespace Mira.Observation
open Mira Bytes

structure PointF where
  (x y : Rat)
  deriving DecidableEq

structure RectF where
  (left top right bottom : Rat)

def RectF.isWellFormed (rect : RectF) : Bool := rect.left ≤ rect.right ∧ rect.top ≤ rect.bottom

def RectF.containsInclusive (rect : RectF) (point : PointF) : Bool :=
  rect.left ≤ point.x ∧ rect.top ≤ point.y ∧ point.x ≤ rect.right ∧ point.y ≤ rect.bottom

/-- `lhs * rhs` applies `rhs` first, then `lhs`. -/
abbrev Matrix3x3 := Matrix (Fin 3) (Fin 3) Rat

namespace Matrix3x3
variable (m : Matrix3x3)

def determinant : Rat :=
  m 0 0 * (m 1 1 * m 2 2 - m 1 2 * m 2 1) - m 0 1 * (m 1 0 * m 2 2 - m 1 2 * m 2 0) +
    m 0 2 * (m 1 0 * m 2 1 - m 1 1 * m 2 0)

def isSingular : Bool := determinant m ≤ 1 / 10 ^ 12 ∧ -(1 / 10 ^ 12) ≤ determinant m

def apply (point : PointF) : Option PointF :=
  let w := m 2 0 * point.x + m 2 1 * point.y + m 2 2
  if w = 0 then none
  else
    some
      ⟨(m 0 0 * point.x + m 0 1 * point.y + m 0 2) / w,
        (m 1 0 * point.x + m 1 1 * point.y + m 1 2) / w⟩

end Matrix3x3

inductive TransformQuality
  | exact | calibrated | approximate | unknown

def TransformQuality.rank : TransformQuality → Nat
  | .exact => 0
  | .calibrated => 1
  | .approximate => 2
  | .unknown => 2

def worseTransformQuality (lhs rhs : TransformQuality) : TransformQuality :=
  if rhs.rank ≤ lhs.rank then lhs else rhs

/-- The spaces are given by the values of their identifiers. -/
structure CoordinateTransform where
  fromSpace : Id128
  toSpace : Id128
  matrix : Matrix3x3 := 1
  validSourceRegion : RectF
  validTargetRegion : RectF
  quality : TransformQuality := .exact
  maxAbsError : Rat := 0
  environmentEpoch : Nat := 0

def transformError (code : ErrorCode) (message : String) : Error where
  code := code
  domain := "mira.coordinates"
  safeMessage := message

def validateCoordinateTransform (transform : CoordinateTransform) : Result Unit :=
  if transform.fromSpace.isNil ∨ transform.toSpace.isNil then
    .error (transformError .invalidArgument "transform endpoints must be non-nil")
  else if transform.fromSpace = transform.toSpace then
    .error (transformError .invalidArgument "transform endpoints must differ")
  else if Matrix3x3.isSingular transform.matrix then
    .error (transformError .invalidArgument "transform matrix must be finite and non-singular")
  else if transform.validSourceRegion.isWellFormed = false ∨
      transform.validTargetRegion.isWellFormed = false then
    .error (transformError .invalidArgument "transform valid regions must be well formed")
  else if transform.maxAbsError < 0 then
    .error (transformError .invalidArgument
      "transform error bound must be finite and non-negative")
  else .ok ()

structure TransformChain where
  fromSpace : Id128
  toSpace : Id128
  environmentEpoch : Nat
  composed : Matrix3x3 := 1
  path : List Id128 := []
  transformIndices : List Nat := []
  maxAbsError : Rat := 0
  quality : TransformQuality := .exact

/-- A transform with its index in the table. -/
abbrev TransformEdge := CoordinateTransform × Nat

def adjacency (available : List CoordinateTransform) (epoch : Nat) (space : Id128) :
    List TransformEdge :=
  available.zipIdx.filter fun edge =>
    edge.1.environmentEpoch = epoch ∧ edge.1.fromSpace = space

structure SearchNode where
  edge : TransformEdge
  previous : Id128

structure ChainSearch where
  frontier : List Id128
  visited : List Id128
  cameFrom : List (Id128 × SearchNode) := []
  found : Bool := false

/-- One edge of the space that is looked at; once the target is found, the others are left. -/
def visitEdge (target current : Id128) (search : ChainSearch) (edge : TransformEdge) :
    ChainSearch :=
  if search.found ∨ edge.1.toSpace = current ∨ edge.1.toSpace ∈ search.visited then search
  else
    let search :=
      { search with
        visited := search.visited ++ [edge.1.toSpace]
        cameFrom := search.cameFrom ++ [(edge.1.toSpace, SearchNode.mk edge current)] }
    if edge.1.toSpace = target then { search with found := true }
    else { search with frontier := search.frontier ++ [edge.1.toSpace] }

/-- The search. Each round takes a space out, and each space gets in once. -/
def chainSearch (available : List CoordinateTransform) (epoch : Nat) (target : Id128) :
    Nat → ChainSearch → ChainSearch
  | 0, search => search
  | fuel + 1, search =>
      if search.found then search
      else
        match search.frontier with
        | [] => search
        | current :: frontier =>
            chainSearch available epoch target fuel
              ((adjacency available epoch current).foldl (visitEdge target current)
                { search with frontier := frontier })

def addEdge (chain : TransformChain) (edge : TransformEdge) : TransformChain :=
  { chain with
    path := chain.path ++ [edge.1.toSpace]
    transformIndices := chain.transformIndices ++ [edge.2]
    composed := edge.1.matrix * chain.composed
    maxAbsError := chain.maxAbsError + edge.1.maxAbsError
    quality := worseTransformQuality chain.quality edge.1.quality }

/-- The way back from a space; the cursor is always the target of the edge by which it came. -/
def traceBack (fromSpace : Id128) (cameFrom : List (Id128 × SearchNode)) :
    Nat → Id128 → TransformChain → Result TransformChain
  | 0, _, chain => .ok chain
  | fuel + 1, cursor, chain =>
      if cursor = fromSpace then .ok chain
      else
        match cameFrom.lookup cursor with
        | none => .ok chain
        | some step =>
            match validateCoordinateTransform step.edge.1 with
            | .error error => .error error
            | .ok () => traceBack fromSpace cameFrom fuel step.previous (addEdge chain step.edge)

def resolveTransformChain (available : List CoordinateTransform) (fromSpace toSpace : Id128)
    (epoch : Nat) : Result TransformChain :=
  if fromSpace.isNil ∨ toSpace.isNil then
    .error (transformError .invalidArgument "chain endpoints must be non-nil")
  else if fromSpace = toSpace then
    .error (transformError .invalidArgument "chain endpoints must differ")
  else if ∀ transform ∈ available, transform.environmentEpoch ≠ epoch then
    .error (transformError .staleObservation "no transforms exist for the requested epoch")
  else
    let search := chainSearch available epoch toSpace (available.length + 2)
      { frontier := [fromSpace]
        visited := [fromSpace] }
    if search.found = false then
      .error (transformError .invalidObservation "no transform chain between spaces")
    else
      (traceBack fromSpace search.cameFrom (search.cameFrom.length + 1) toSpace
        { fromSpace := fromSpace
          toSpace := toSpace
          environmentEpoch := epoch }).map fun chain =>
          { chain with
            path := (chain.path ++ [fromSpace]).reverse
            transformIndices := chain.transformIndices.reverse }

structure TransformedPoint where
  point : PointF
  errorBound : Rat

def orderedChainEdges (available : List CoordinateTransform) (chain : TransformChain) :
    Result (List CoordinateTransform) :=
  match chain.transformIndices.mapM fun index => available[index]? with
  | none =>
      .error (transformError .invalidArgument "chain references a transform outside the table")
  | some [] => .error (transformError .invalidArgument "chain contains no transforms")
  | some edges => .ok edges

def movePoint : List CoordinateTransform → PointF → Result PointF
  | [], current => .ok current
  | edge :: rest, current =>
      if edge.validSourceRegion.containsInclusive current = false then
        .error (transformError .invalidObservation
          "point is outside a transform's valid source region")
      else
        match Matrix3x3.apply edge.matrix current with
        | none =>
            .error (transformError .invalidObservation "transform produced a non-finite point")
        | some next =>
            if edge.validTargetRegion.containsInclusive next = false then
              .error (transformError .invalidObservation
                "point is outside a transform's valid target region")
            else movePoint rest next

def transformPointThrough (available : List CoordinateTransform) (chain : TransformChain)
    (source : PointF) : Result TransformedPoint :=
  if Matrix3x3.isSingular chain.composed then
    .error (transformError .invalidObservation "chain matrix is not usable")
  else
    match orderedChainEdges available chain with
    | .error error => .error error
    | .ok edges => (movePoint edges source).map fun point => ⟨point, chain.maxAbsError⟩

end Mira.Observation
