import MemoryAtlas.Schema.Fault
import MemoryAtlas.Types.Kind

namespace MemoryAtlas
namespace Schema

/-!
Structures that contain themselves.

A structure embeds the structures that its own fields hold by value, alone or
as elements of an array.  The search goes down from every name in turn,
remembers what is finished, and stops at the first name that is met again on
the way down.
-/

/-- The names that a list of fields embeds by value. -/
def embeddedNames (fields : List Field) : List String :=
  fields.filterMap (fun field => field.kind.embeddedName?)

/-- Goes down from a name.  `path` leads to it, `done` holds the names that
are known to be free of cycles; the names finished on the way are added. -/
def visitEmbedded (fieldsOf : String -> List Field) :
    Nat -> String -> List String -> List String -> Except Fault (List String)
  | 0, _, _, done => .ok done
  | fuel + 1, name, path, done =>
    if done.contains name then .ok done
    else do
      let done <- (embeddedNames (fieldsOf name)).foldlM
        (fun done inner =>
          if path.contains inner then .error (.recursiveEmbedding inner (path ++ [inner]))
          else visitEmbedded fieldsOf fuel inner (path ++ [inner]) done)
        done
      return name :: done

/-- Searches from all of the given names.  A way down without repetition has
at most one name more than there are names with fields. -/
def checkEmbedding (fieldsOf : String -> List Field) (names : List String) : Except Fault Unit := do
  let _ <- names.foldlM
    (fun done name => visitEmbedded fieldsOf (names.length + 2) name [name] done) []
  return ()

end Schema
end MemoryAtlas
