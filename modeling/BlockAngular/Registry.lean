import BlockAngular.Error

/-! # Registries

Where the images of variables or constraints are written down: the image of each
preimage in the compact model with the block that the image lives in, in the order
of registration, and the block of each image. An image that is registered for a
second preimage keeps its place among the images and takes the later block.
-/

namespace BlockAngular

/-- A preimage with its image and the block of the image. -/
structure Registration where
  preimage : Handle
  image : Handle
  block : Block

/-- What a registry is about. -/
inductive Registry.Kind where
  | vars | constraints

/-- The registered preimages and their images. -/
structure Registry where
  registrations : List Registration
  owners : List (Handle × Block)

namespace Registry

/-- The registry without images. -/
def empty : Registry :=
  ⟨[], []⟩

/-- The registration of a preimage. -/
def find? (r : Registry) (preimage : Handle) : Option Registration :=
  r.registrations.find? fun e => e.preimage = preimage

/-- Whether a preimage is registered. -/
def contains (r : Registry) (preimage : Handle) : Bool :=
  (r.find? preimage).isSome

/-- The image of a preimage. -/
def image? (r : Registry) (preimage : Handle) : Option Handle :=
  (r.find? preimage).map (·.image)

/-- The block that the image of a preimage lives in. -/
def owner? (r : Registry) (preimage : Handle) : Option Block :=
  (r.find? preimage).map (·.block)

/-- The preimage of an image; the one that was registered first counts. -/
def preimage? (r : Registry) (image : Handle) : Option Handle :=
  (r.registrations.find? fun e => e.image = image).map (·.preimage)

/-- The block that an image lives in. -/
def imageOwner? (r : Registry) (image : Handle) : Option Block :=
  r.owners.lookup image

/-- The block of an image; a handle that is no image is reported. -/
def imageOwner (r : Registry) (image : Handle) : Except Error Block :=
  match r.imageOwner? image with
  | some block => .ok block
  | none => .error (.inconsistent (.noPreimage image))

/-- The images that live in a block. -/
def imagesOf (r : Registry) (block : Block) : List Handle :=
  (r.owners.filter fun (_, owner) => owner.same block).map (·.1)

/-- The number of preimages. -/
def size (r : Registry) : Nat :=
  r.registrations.length

/-- The kind and the size of a registry. -/
def summary (r : Registry) : Kind → String
  | .vars => "VariableMapping with " ++ Nat.repr r.size ++ " variable mappings"
  | .constraints => "ConstraintMapping with " ++ Nat.repr r.size ++ " constraint mappings"

/-- Register the image of a preimage that has none yet. -/
def add (r : Registry) (preimage image : Handle) (block : Block) : Except Error Registry :=
  if r.contains preimage then .error (.inconsistent (.registeredTwice preimage))
  else .ok ⟨r.registrations ++ [⟨preimage, image, block⟩], Handle.put image block r.owners⟩

end Registry

end BlockAngular
