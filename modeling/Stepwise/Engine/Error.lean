namespace Stepwise

inductive ErrorKind where
  | parse
  | runtime
  | conversion
  | notFound
deriving Repr, DecidableEq

structure EngineError where
  kind : ErrorKind
  message : String
deriving Repr, DecidableEq

end Stepwise
