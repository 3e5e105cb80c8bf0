import McpSdk.Message
/-!
# RootsProvider — the filesystem roots a client exposes

As in the server's registries, an operation that registers or removes returns the new provider, or why it changed nothing.
-/
namespace Mcp

structure Root where
  uri : Bytes
  name : Option Bytes := none

structure RootsProvider where
  roots : List Root := []

namespace RootsProvider

def addRoot (p : RootsProvider) (root : Root) : Result RootsProvider :=
  if !startsWith root.uri (bytes "file://") then
    .error (Error.of .invalidUri (bytes "root URI must use the file:// scheme: " ++ root.uri))
  else if p.roots.any (fun existing => existing.uri == root.uri) then
    .error (Error.of .invalidParams (bytes "root already registered: " ++ root.uri))
  else .ok { p with roots := p.roots ++ [root] }

def removeRoot (p : RootsProvider) (uri : Bytes) : Option RootsProvider :=
  if p.roots.any (fun root => root.uri == uri) then some { p with roots := p.roots.eraseP (fun root => root.uri == uri) }
  else none

def listRoots (p : RootsProvider) : List Root := p.roots

def size (p : RootsProvider) : Nat := p.roots.length

end RootsProvider

end Mcp
