import RamlDoc.Model.Library
import RamlDoc.Model.Resource

/-!
# Documents

The root of the model. `Document.resourcesDepthFirst` lists the resources of a document with their
absolute paths by a loop over a stack; `Resource.visit` is the recursion that it amounts to.
-/

namespace RamlDoc

/-- A chapter of a document's documentation. -/
structure Chapter where
  title : String
  content : String
  annotations : Block AnnotationUse := none
deriving DecidableEq, Repr

/-- A document. -/
structure Document where
  title : String
  description : Option String := none
  version : Option String := none
  baseUri : Option String := none
  baseUriParameters : Block Parameter := none
  protocols : Block Protocol := none
  /-- The media types of bodies that name none. -/
  mediaTypes : Option (List MediaType) := none
  documentation : Block Chapter := none
  declarations : Declarations := {}
  securedBy : Block Usage := none
  uses : Block Library := none
  resources : Block Resource := none
  annotations : Block AnnotationUse := none
deriving DecidableEq, Repr

namespace Resource

mutual

/-- How many resources a tree of resources has. -/
def count : Resource → Nat
  | { resources, .. } => countBlock resources + 1

/-- How many resources the trees below a node have. -/
def countBlock : Block Resource → Nat
  | none => 0
  | some resources => countList resources

/-- How many resources a list of trees has. -/
def countList : List Resource → Nat
  | [] => 0
  | resource :: resources => count resource + countList resources

end

/-- How many resources are in the trees on a stack. -/
def countStack : (stack : List (String × Resource)) → Nat
  | [] => 0
  | (_, resource) :: stack => resource.count + countStack stack

theorem countStack_append (stack below : List (String × Resource)) :
    countStack (stack ++ below) = countStack stack + countStack below := by
  induction stack with
  | nil => simp [countStack]
  | cons entry stack ih => rw [List.cons_append, countStack, countStack, ih, Nat.add_assoc]

theorem countStack_map (path : Resource → String) (resources : List Resource) :
    countStack (resources.map fun resource => (path resource, resource)) =
      countList resources := by
  induction resources with
  | nil => rfl
  | cons resource resources ih => simp_all [countStack, countList]

theorem count_eq (resource : Resource) : resource.count = countList resource.children + 1 := by
  obtain ⟨_, _, _, _, _, resources, _, _, _, _⟩ := resource
  cases resources <;> simp [count, countBlock, countList, children]

/-- A list of resources below a parent with a given path, with their absolute paths. -/
def withPaths (parent : String) (resources : List Resource) : List (String × Resource) :=
  resources.map fun resource => (resource.absolutePath parent, resource)

/-- Takes resources off a stack until it is empty; each is followed by its children. -/
def depthFirst : (stack : List (String × Resource)) → List (String × Resource)
  | [] => []
  | (path, resource) :: stack =>
    (path, resource) :: depthFirst (withPaths path resource.children ++ stack)
termination_by stack => countStack stack
decreasing_by
  rw [withPaths, countStack_append, countStack_map, countStack, count_eq]
  omega

mutual

/-- A resource below a parent with a given path, followed by the resources in it. -/
def visit (parent : String) : Resource → List (String × Resource)
  | ⟨path, displayName, description, annotations, methods, resources, traits, resourceType,
      securedBy, uriParameters⟩ =>
    let resource : Resource := ⟨path, displayName, description, annotations, methods, resources,
      traits, resourceType, securedBy, uriParameters⟩
    (resource.absolutePath parent, resource) ::
      visitBlock (resource.absolutePath parent) resources

/-- The resources below a parent, each followed by the resources in it. -/
def visitBlock (parent : String) : Block Resource → List (String × Resource)
  | none => []
  | some resources => visitList parent resources

/-- The resources of a list, each followed by the resources in it. -/
def visitList (parent : String) : List Resource → List (String × Resource)
  | [] => []
  | resource :: resources => visit parent resource ++ visitList parent resources

end

end Resource

namespace Document

/-- All resources of a document with their absolute paths, each before the resources in it. -/
def resourcesDepthFirst (document : Document) : List (String × Resource) :=
  Resource.depthFirst (Resource.withPaths "" document.resources.elements)

end Document

end RamlDoc
