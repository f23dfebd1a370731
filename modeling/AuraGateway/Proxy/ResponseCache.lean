import AuraGateway.Storage.Rows
import AuraGateway.Proxy.State

/-!
# The response cache

Responses by a hash of the request: the model, the input, the instructions, the
temperature, the token limit, the tools and the tool choice. The serialisers and the hash
are the libraries' (`Codec`). An entry records for whom it was stored, which the gateway
does not: neither the key nor the stored text says so.
-/

set_option autoImplicit false

namespace AuraGateway.Proxy

open AuraGateway.RustStd AuraGateway.Types AuraGateway.Storage

/-- A response as the cache returns it: its metadata, and the rest of its fields. -/
structure CachedResponse where
  metadata : Option Json
  body : Json

/-- JSON texts and the hash. -/
structure Codec where
  inputJson : List InputItem → String
  toolsJson : List Tool → String
  toolChoiceJson : ToolChoice → String
  sha256Hex : String → String
  parseResponse : String → Option CachedResponse

/-- What the cache key hashes. -/
def keyText (codec : Codec) (request : CreateResponseRequest) : String :=
  request.model ++ "|" ++ codec.inputJson request.input ++ "|"
    ++ request.instructions.getD "" ++ "|"
    ++ (request.temperature.map fun t => formatFixed 2 t.toFloat).getD "" ++ "|"
    ++ (request.maxOutputTokens.map Nat.repr).getD "" ++ "|"
    ++ (request.tools.map codec.toolsJson).getD "" ++ "|"
    ++ (request.toolChoice.map codec.toolChoiceJson).getD ""

/-- Generate a cache key from a request. -/
def generateCacheKey (codec : Codec) (request : CreateResponseRequest) : String :=
  "aura:cache" ++ ":" ++ codec.sha256Hex (keyText codec request)

/-- Whether the cache is left out for a request: it streams, or its temperature is above
zero. -/
def shouldSkipCache (request : CreateResponseRequest) : Bool :=
  request.stream ||
    match request.temperature with
    | some t => decide (0.0 < t)
    | none => false

/-- An entry of the cache. -/
structure CacheEntry where
  key : String
  json : String
  storedFor : Option Uuid
  deriving DecidableEq, Repr

/-- The entries an organization owns. -/
def ownsEntry (a : Uuid) (e : CacheEntry) : Bool := ownedBy a e.storedFor

/-- Get a cached response for a request; an entry that does not parse is an error, which
counts as a miss. -/
def cacheGet (codec : Codec) (cache : List CacheEntry) (request : CreateResponseRequest) :
    Option CachedResponse :=
  (cache.find? fun e => e.key == generateCacheKey codec request).bind fun e =>
    codec.parseResponse e.json

/-- Enrich a cached response with cache metadata. -/
def enrichCachedResponse (response : CachedResponse) (cacheKey : String) : CachedResponse :=
  { response with
    metadata := some <| .object <|
      match response.metadata with
      | some (.object existing) =>
          assocInsert "cache_key" (.string cacheKey)
            (assocInsert "cache_hit" (.bool true) existing)
      | _ => [("cache_hit", .bool true), ("cache_key", .string cacheKey)] }

end AuraGateway.Proxy
