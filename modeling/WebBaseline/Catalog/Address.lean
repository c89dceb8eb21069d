import WebBaseline.Digest.Blake3

/-!
# Addresses of catalogs

A catalog is requested from the base address of a server and an endpoint.
Entries of the cache belong to addresses, so that servers do not mix.
-/

namespace WebBaseline.Catalog

/-- A text without the slashes at its end. -/
def dropFinalSlashes (s : String) : String :=
  String.ofList (s.toList.reverse.dropWhile (· = '/')).reverse

/-- The address of an endpoint: one slash is put between the two if the endpoint has none. -/
def address (base endpoint : String) : String :=
  dropFinalSlashes base ++ (if endpoint.startsWith "/" then "" else "/") ++ endpoint

/-- The key of the entry for an address. -/
def keyOfAddress (address : String) : String :=
  "api-cache:" ++ String.ofList ((Digest.blake3 address).toList.take 16)

end WebBaseline.Catalog
