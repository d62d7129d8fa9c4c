
import Mdx.Config.Settings
import Mdx.Node.Basic
import Mdx.Text.Basic
import Mdx.Text.Case

/-!
# Images from bare links

A paragraph that has nothing in it but the address of an image becomes a paragraph with the image.
An address is an image's if it ends in one of the given file extensions, letter case and a query
aside. Which file extensions are those of images is a setting.
-/

namespace Mdx.Extended

/-- The file extensions of images, unless others are asked for. -/
def imageExtensions : List String :=
  ["png", "jpg", "jpeg", "gif", "svg", "webp"]

/-- The end that an address with this file extension has. -/
def extensionSuffix (ext : String) : List Char :=
  '.' :: (Text.lower ext.toList).dropWhile (· == '.')

/-- The text after the scheme of a web address. -/
def afterScheme? (url : List Char) : Option (List Char) :=
  match url with
  | 'h' :: 't' :: 't' :: 'p' :: ':' :: '/' :: '/' :: rest => some rest
  | 'h' :: 't' :: 't' :: 'p' :: 's' :: ':' :: '/' :: '/' :: rest => some rest
  | _ => none

/-- Whether a text is a web address: a scheme and at least one character, without blanks. -/
def isWebAddress (url : List Char) : Bool :=
  (afterScheme? url).any fun rest => !rest.isEmpty && rest.all (!Text.isBlank ·)

/-- Whether a text is the address of an image. -/
def isImageAddress (extensions : List String) (url : List Char) : Bool :=
  let path := Text.lower (url.takeWhile (· != '?'))
  isWebAddress url && extensions.any fun ext => (extensionSuffix ext).isSuffixOf path

/-- An image without a description. -/
def imageNode (url : List Char) : Node :=
  .leaf
    { kind := "image"
      props := [("url", .str (String.ofList url)), ("alt", .str ""), ("title", .null)] }

/-- The children of a paragraph, with an image in place of its address. -/
def linkImage (extensions : List String) (children : List Node) : List Node :=
  match children with
  | [n] =>
      let url := Text.trim n.text.toList
      if n.kind = "text" && isImageAddress extensions url then [imageNode url] else children
  | _ => children

mutual

/-- A tree with images in place of paragraphs' bare addresses. -/
def autolink (extensions : List String) : Node → Node
  | .leaf h => .leaf h
  | .branch h cs =>
      .branch h (if h.kind = "paragraph" then linkImage extensions cs
        else autolinkList extensions cs)

/-- Trees with images in place of paragraphs' bare addresses. -/
def autolinkList (extensions : List String) : List Node → List Node
  | [] => []
  | n :: rest => autolink extensions n :: autolinkList extensions rest

end

/-- The settings that tell images by their file extension. -/
def imageSchema : Config.Schema :=
  [⟨"image_extensions", .texts, some (.arr (imageExtensions.map .str))⟩]

/-- The file extensions that the settings give to images. -/
def readExtensions (settings : Json.Members) : Except Failure (List String) := do
  match (← imageSchema.read settings).lookup "image_extensions" with
  | some (.arr items) => return (Config.textList? items).getD []
  | _ => return []

/-- A tree with images in place of paragraphs' bare addresses, as the settings tell them. -/
def autolinkWith (settings : Json.Members) (tree : Node) : Except Failure Node := do
  return autolink (← readExtensions settings) tree

end Mdx.Extended
