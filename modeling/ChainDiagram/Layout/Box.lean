/-!
# Points and boxes

Geometry in single precision. Every operation rounds, so the order of the operations matters, and
none may be exchanged for another that is equal only for real numbers.
-/

set_option autoImplicit false

namespace ChainDiagram

/-- The smaller of two numbers. What is not a number loses; of two zeros the first is taken. -/
def lesser (a b : Float32) : Float32 :=
  if a.isNaN then b
  else if b.isNaN then a
  else if b < a then b
  else a

/-- The greater of two numbers. What is not a number loses; of two zeros the first is taken. -/
def greater (a b : Float32) : Float32 :=
  if a.isNaN then b
  else if b.isNaN then a
  else if a < b then b
  else a

/-- A point of the drawing plane, whose second axis points down. -/
structure Point where
  x : Float32
  y : Float32

/-- A box, given by its upper left corner and its size. -/
structure Box where
  x : Float32
  y : Float32
  width : Float32
  height : Float32

namespace Box

/-- The box without extent at the origin. -/
def zero : Box := ⟨0, 0, 0, 0⟩

/-- The box of a size around a point. -/
def centered (center : Point) (width height : Float32) : Box :=
  ⟨center.x - width / 2, center.y - height / 2, width, height⟩

/-- The point in the middle of a box. -/
def center (box : Box) : Point := ⟨box.x + box.width / 2, box.y + box.height / 2⟩

/-- The least box around two. -/
def union (a b : Box) : Box :=
  let x := lesser a.x b.x
  let y := lesser a.y b.y
  let right := greater (a.x + a.width) (b.x + b.width)
  let bottom := greater (a.y + a.height) (b.y + b.height)
  ⟨x, y, right - x, bottom - y⟩

/-- The least box around all of a list. -/
def hull : List Box → Box
  | [] => zero
  | box :: boxes => boxes.foldl union box

end Box

end ChainDiagram
